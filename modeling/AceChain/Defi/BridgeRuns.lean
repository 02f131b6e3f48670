import AceChain.Defi.SystemTx
import Mathlib.Logic.Basic

namespace AceChain.Defi

open AceChain.Runtime State Lib Handler Vm Engine

/-- The system transactions of the bridge, and any other change in between. -/
inductive BridgeTx where
  | deposit (payload : List UInt8)
  | withdraw (sender : AccountId) (request : OAssetWithdrawRequest) (blockSlot : Nat)
  | complete (idcom : Hash) (payload : List UInt8)
  | other (change : StateTree → StateTree)

namespace Bridge

section

variable [Formats] (b : Bridge) (id : Hash) (t : StateTree)

def step : BridgeTx → StateTree
  | .deposit payload => (b.executeBridgeDeposit payload t).2
  | .withdraw sender request blockSlot => (b.executeOassetWithdraw sender request blockSlot t).2
  | .complete idcom payload => (b.executeWithdrawalCompletion idcom payload t).2
  | .other change => change t

def credits : BridgeTx → Bool
  | .deposit payload =>
    match decodeSignedDepositPayload payload, (b.executeBridgeDeposit payload t).1 with
    | .ok signed, .ok _ => signed.deposit.depositId = id
    | _, _ => false
  | _ => false

def withdrawalId : BridgeTx → Option Nat
  | .withdraw sender request blockSlot => (b.executeOassetWithdraw sender request blockSlot t).1.toOption.map (·.withdrawalId)
  | _ => none

def nonceOf (sender : AccountId) (t : StateTree) : Nat := ((t.get sender).map (·.nonce)).getD 0

def withdrawalNonce (sender : AccountId) (t : StateTree) : BridgeTx → Option Nat
  | .withdraw other request blockSlot =>
    if other = sender then (b.withdrawalId t (.withdraw other request blockSlot)).map (fun _ => request.nonce) else none
  | _ => none

def Leaves (w : Hash) : BridgeTx → Prop
  | .other change => (change t).getStorage b.authorityId w = t.getStorage b.authorityId w
  | _ => True

def LeavesCounter (tx : BridgeTx) : Prop :=
  b.Leaves t (b.slot .nextWithdrawal) tx ∧ ∀ payload signed, tx = .deposit payload →
    decodeSignedDepositPayload payload = .ok signed → signed.deposit.depositId ≠ b.slot .nextWithdrawal

def KeepsNonce (sender : AccountId) (t : StateTree) : BridgeTx → Prop
  | .other change => nonceOf sender t ≤ nonceOf sender (change t)
  | _ => True

end

variable {b : Bridge} {w : Hash} {p : Hash → Prop} {t t' : StateTree} {signed : SignedDepositRecord} {id : Hash}

/-- What is kept by new accounts, by the cells of the bridge other than the next withdrawal id, and by the token ledger. -/
class Kept (b : Bridge) (I : StateTree → Prop) : Prop where
  account : ∀ ⦃t⦄ id, I t → I (ensureAccount b.derive t id)
  cell : ∀ ⦃t⦄ c value, c ≠ .nextWithdrawal → I t → I (b.setCell c value t)
  token : ∀ ⦃t⦄ slot value, I t → I (t.setStorage b.tokens.program slot value)

/-- No cell is kept under this slot of the bridge's account, unless the next withdrawal id is. -/
class Unshared (b : Bridge) (w : Hash) : Prop where
  slots : ∀ c, c ≠ .nextWithdrawal → b.slot c ≠ w
  ledger : b.tokens.program ≠ b.authorityId

abbrev Word (b : Bridge) (w : Hash) (p : Hash → Prop) (t : StateTree) : Prop := p (t.getStorage b.authorityId w)

theorem word_of_same (same : t'.getStorage b.authorityId w = t.getStorage b.authorityId w) (before : b.Word w p t) :
    b.Word w p t' := by
  rwa [Word, same]

theorem word_of_storage (same : t'.contractStorage = t.contractStorage) : b.Word w p t → b.Word w p t' :=
  word_of_same (by rw [getStorage_eq, getStorage_eq, same])

theorem word_setStorage {owner : AccountId} {slot value : Hash} (apart : owner = b.authorityId → slot ≠ w) :
    b.Word w p t → b.Word w p (t.setStorage owner slot value) :=
  word_of_same (by rw [getStorage_setStorage, if_neg (fun same => apart same.1.symm same.2.symm)])

instance [unshared : b.Unshared w] : b.Kept (b.Word w p) where
  account t id := word_of_storage (storage_ensureAccount b.derive t id)
  cell _ c _ other := word_setStorage fun _ => unshared.slots c other
  token _ _ _ := word_setStorage fun same => absurd same unshared.ledger

instance {sender : AccountId} {n : Nat} : b.Kept (n ≤ nonceOf sender ·) where
  account t id few := by
    unfold nonceOf at few ⊢
    rw [get_ensureAccount]
    by_cases same : sender = id
    · subst same
      rw [if_pos rfl]
      cases found : t.get sender <;> rw [found] at few
      · exact Nat.le_trans few (Nat.zero_le _)
      · exact few
    · rwa [if_neg same]
  cell _ _ _ _ few := few
  token _ _ _ few := few

variable {I : StateTree → Prop}

section

variable [Formats]

instance checkWithdrawal_stays (risk : RiskConfig) (amount : Nat) : Stays I (risk.checkWithdrawal amount) := by
  unfold RiskConfig.checkWithdrawal RiskConfig.checkSupportedQuorum
  infer_instance

instance checkDeposit_stays (risk : RiskConfig) (amount : Nat) : Stays I (risk.checkDeposit amount) := by
  unfold RiskConfig.checkDeposit RiskConfig.checkSupportedQuorum
  infer_instance

instance checkInvariant_stays (canonical : Hash) : Stays I (b.checkInvariant canonical) := by
  unfold checkInvariant
  infer_instance

instance requireRelayer_stays (pubkey : Hash) : Stays I (b.requireRelayer pubkey) := by
  unfold requireRelayer
  infer_instance

instance checkSignature_stays (pubkey message : Hash) (signature : List UInt8) :
    Stays I (b.checkSignature pubkey message signature) := by
  unfold checkSignature
  infer_instance

instance verifySignedDeposit_stays : Stays I (b.verifySignedDepositAgainstState signed) := by
  unfold verifySignedDepositAgainstState
  infer_instance

instance verifyCompletion_stays (c : WithdrawalCompletionRecord) : Stays I (b.verifyWithdrawalCompletionAgainstState c) := by
  unfold verifyWithdrawalCompletionAgainstState
  infer_instance

instance checkDepositLimits_stays (asset : ExternalAsset) (amount : Nat) : Stays I (b.checkDepositLimits asset amount) := by
  unfold checkDepositLimits
  infer_instance

end

section

variable [kept : b.Kept I]

instance {ε : Type} (recipient : AccountId) :
    Stays I (write (fun t => ensureAccount b.derive t recipient) : Handler StateTree ε Unit) :=
  .write fun _ => kept.account recipient

theorem ledgered_stays {ε : Type} {touches : Hash → Prop} {f : Handler StateTree String (List StateChange)}
    (ledgered : b.tokens.Ledgered b.derive touches f) (wrap : String → ε) : Stays I (adapt wrap f) where
  leads t changes t' done before := by
    obtain ⟨result, writes, makes, -, ran⟩ := ledgered (b.tokens.word t)
    have filled : ∀ t, I t → I (b.tokens.fill t writes) := by
      intro t before
      apply List.foldlRecOn (motive := I)
      · exact before
      · exact fun after held entry _ => kept.token entry.1 entry.2 held
    obtain rfl := congrArg Prod.snd ((ran t rfl).symm.trans (ok_adapt.mp done))
    cases makes with
    | false => exact filled t before
    | true => exact filled _ (kept.account _ before)

theorem setNumber_stays {ε : Type} {c : Cell} (other : c ≠ .nextWithdrawal) (n : Nat) :
    Stays I (write (b.setNumber c n) : Handler StateTree ε Unit) := .write fun _ => kept.cell c _ other

theorem putRecord_stays {α : Type} (codec : Codec α) (place : Place) (value : α) :
    Stays I (write (b.putRecord codec place value) : BridgeM Unit) := by
  apply Leads.write
  intro t before
  apply List.foldlRecOn (motive := I)
  · exact kept.cell _ _ nofun (kept.cell _ _ nofun before)
  · exact fun after held index _ => kept.cell _ _ nofun held

theorem recordDailyLimit_stays (counter : Nat → Cell) (other : ∀ day, counter day ≠ .nextWithdrawal)
    (amount slot limit : Nat) :
    Stays I (b.recordDailyLimit counter amount slot limit) := by
  have counted : ∀ n, Stays I (write (b.setNumber (counter (b.dayOf slot)) n) : BridgeM Unit) := setNumber_stays (other _)
  unfold recordDailyLimit
  infer_instance

variable [Formats]

instance putPosition_stays (asset : ExternalAsset) (p : ReservePosition) :
    Stays I (b.putPosition asset p) := putRecord_stays _ _ _

instance putSupply_stays (canonical : Hash) (s : CanonicalSupply) : Stays I (b.putSupply canonical s) := putRecord_stays _ _ _

instance putReserveTotal_stays (canonical : Hash) (r : CanonicalReserveTotal) : Stays I (b.putReserveTotal canonical r) :=
  putRecord_stays _ _ _

instance writeWithdrawalRecord_stays (record : WithdrawalRecord) :
    Stays I (b.writeWithdrawalRecord record) := putRecord_stays _ _ _

section

variable (asset : ExternalAsset) (canonical : Hash) (amount slot : Nat)

instance increaseReserveTotal_stays : Stays I (b.increaseReserveTotal canonical amount) := by
  unfold increaseReserveTotal
  infer_instance

instance decreaseReserveTotal_stays : Stays I (b.decreaseReserveTotal canonical amount) := by
  unfold decreaseReserveTotal
  infer_instance

instance increaseSupply_stays : Stays I (b.increaseSupply canonical amount) := by
  unfold increaseSupply
  infer_instance

instance decreaseSupply_stays : Stays I (b.decreaseSupply canonical amount) := by
  unfold decreaseSupply
  infer_instance

instance recordDeposit_stays : Stays I (b.recordDeposit asset canonical amount slot) := by
  unfold recordDeposit
  infer_instance

instance reserveWithdrawal_stays : Stays I (b.reserveWithdrawal asset canonical amount slot) := by
  unfold reserveWithdrawal
  infer_instance

instance finalizeWithdrawal_stays : Stays I (b.finalizeWithdrawal asset amount slot) := by
  unfold finalizeWithdrawal
  infer_instance

end

instance burn_stays (mintId sender : AccountId) (amount : Nat) : Stays I (b.burn mintId sender amount) := by
  have burned : Stays I (adapt BridgeError.burnError _) := ledgered_stays
    (TokenSlots.transferBetweenOwners_ledgered b.tokens b.derive mintId.bytes sender b.authorityId amount) _
  unfold burn
  infer_instance

instance mint_stays (mintId owner : AccountId) (amount : Nat) : Stays I (b.mint mintId owner amount) := by
  have minted : Stays I (adapt BridgeError.mintError _) := ledgered_stays
    (TokenSlots.mintToOwner_ledgered b.tokens b.derive mintId.bytes owner amount b.authorityId) _
  unfold mint
  infer_instance

instance indexWithdrawalRecord_stays (record : WithdrawalRecord) : Stays I (b.indexWithdrawalRecord record) := by
  have listed : ∀ index n, Stays I (write (b.setNumber (.indexId index) n) : BridgeM Unit) := fun _ => setNumber_stays nofun
  have counted : ∀ n, Stays I (write (b.setNumber .indexCount n) : BridgeM Unit) := setNumber_stays nofun
  unfold indexWithdrawalRecord
  infer_instance

instance checkAndRecordWithdrawal_stays (risk : RiskConfig) (asset : ExternalAsset) (amount slot : Nat) :
    Stays I (b.checkAndRecordWithdrawal risk asset amount slot) := by
  have daily : ∀ limit, Stays I (b.recordDailyLimit (.dailyWithdraw asset) amount slot limit) :=
    recordDailyLimit_stays (.dailyWithdraw asset) (fun _ => nofun) amount slot
  unfold checkAndRecordWithdrawal
  infer_instance

instance debitWithdrawal_stays (sender : AccountId) (r : OAssetWithdrawRequest) (canonical : CanonicalAsset)
    (amount slot next : Nat) :
    Stays I (b.debitWithdrawal sender r canonical amount slot next) := by
  unfold debitWithdrawal
  infer_instance

instance requestOassetWithdrawal_stays (sender : AccountId) (r : OAssetWithdrawRequest) (slot next : Nat) :
    Stays I (b.requestOassetWithdrawal sender r slot next) := by
  have inner : Stays I (b.requestOassetWithdrawalInner sender r slot next) := by
    unfold requestOassetWithdrawalInner
    iterate 12 refine .bind (I := I) inferInstance fun _ => ?_
    infer_instance
  unfold requestOassetWithdrawal
  infer_instance

instance settleReserve_stays (record : WithdrawalRecord) : Stays I (b.settleReserve record) := by
  refine .bind (I := I) inferInstance fun found => ?_
  cases found <;> dsimp only <;> infer_instance

instance completeIndexedWithdrawal_stays (c : WithdrawalCompletionRecord) : Stays I (b.completeIndexedWithdrawal c) := by
  have marked : Stays I (write (b.setCell (.completed c.withdrawalId) marker) : BridgeM Unit) :=
    .write fun _ => kept.cell _ _ nofun
  unfold completeIndexedWithdrawal completeIndexedWithdrawalInner
  infer_instance

instance executeWithdrawalCompletion_stays (idcom : Hash) (payload : List UInt8) :
    Stays I (b.executeWithdrawalCompletion idcom payload) := by
  unfold executeWithdrawalCompletion completionInner
  infer_instance

instance registerAsset_stays (registry : AssetRegistry) (asset : ExternalAsset) (decimals : UInt8) :
    Stays I (b.registerAsset registry asset decimals) := by
  have created : Stays I (adapt BridgeError.mintError _) := ledgered_stays (TokenSlots.createMint_ledgered b.tokens
    b.derive b.erc20Address (b.wrappedMintId asset).bytes decimals b.authorityId.bytes) _
  unfold registerAsset
  infer_instance

instance registerAllNatives_stays (chains : List ExternalChain) (registry : AssetRegistry) :
    Stays I (b.registerAllNatives chains registry) := by
  induction chains generalizing registry with
  | nil => exact inferInstanceAs (Stays _ (pure registry))
  | cons chain chains ih => exact .bind (I := I) inferInstance ih

instance checkAndRecordDeposit_stays (risk : RiskConfig) (asset : ExternalAsset) (amount slot : Nat) :
    Stays I (b.checkAndRecordDeposit risk asset amount slot) := by
  have daily : ∀ limit, Stays I (b.recordDailyLimit (.dailyDeposit asset) amount slot limit) :=
    recordDailyLimit_stays (.dailyDeposit asset) (fun _ => nofun) amount slot
  unfold checkAndRecordDeposit
  infer_instance

section

variable (d : DepositRecord) [marks : Stays I (write (b.markProcessed d.depositId) : BridgeM Unit)]

instance creditDeposit_stays (mapping : ExternalAssetMapping) (canonical : CanonicalAsset) (amount slot : Nat) :
    Stays I (b.creditDeposit d mapping canonical amount slot) := by
  unfold creditDeposit
  infer_instance

instance processDeposit_stays (registry : AssetRegistry) : Stays I (b.processDeposit registry d) := by
  unfold processDeposit wrapDeposit
  infer_instance

end

instance depositInner_stays [Stays I (write (b.markProcessed signed.deposit.depositId) : BridgeM Unit)] :
    Stays I (b.depositInner signed) := by
  refine .bind (I := I) inferInstance fun mapping => ?_
  unfold processDepositToOasset processDepositToOassetInner processPlainDeposit processStateApprovedSignedDeposit
  cases mapping <;> dsimp only <;> infer_instance

end

abbrev Marked (b : Bridge) (id : Hash) : StateTree → Prop := b.Word id (fun word => isMarked word = true)

instance {P : StateTree → Prop} : Leads P (write (b.markProcessed id) : BridgeM Unit) (fun _ => b.Marked id) := by
  refine .write fun t _ => ?_
  unfold Marked Word markProcessed
  rw [getStorage_setStorage, if_pos ⟨rfl, rfl⟩]
  rfl

instance (other : Hash) : Stays (b.Marked id) (write (b.markProcessed other) : BridgeM Unit) := by
  by_cases same : other = id
  · rw [same]
    infer_instance
  · exact .write fun t => word_setStorage fun _ => same

instance (sender : AccountId) (nonce : Nat) : Stays (b.Word w p) (consumeNonce sender nonce) := by
  have counted : ∀ next : Nat,
      Stays (b.Word w p) (write (fun t => t.modify sender (fun a => { a with nonce := next })) : SystemM Unit) :=
    fun next => .write fun t => word_of_storage (t := t) rfl
  unfold consumeNonce
  infer_instance

variable {sender : AccountId}

theorem consumeNonce_ok {nonce : Nat} {u : Unit} (done : consumeNonce sender nonce t = (.ok u, t')) :
    nonceOf sender t = nonce ∧ ∀ other, nonceOf other t' = if other = sender then nonce + 1 else nonceOf other t := by
  obtain ⟨a, _, looked, done⟩ := ok_bind.mp done
  obtain ⟨found, rfl⟩ := ok_demand.mp looked
  obtain ⟨_, _, same, done⟩ := ok_bind.mp done
  obtain ⟨rfl, rfl⟩ := ok_require.mp same
  obtain ⟨_, _, added, done⟩ := ok_bind.mp done
  obtain ⟨sum, rfl⟩ := ok_demand.mp added
  obtain rfl := u64CheckedAdd_eq sum
  obtain rfl := ok_write.mp done
  unfold nonceOf
  refine ⟨by rw [found]; rfl, fun other => ?_⟩
  rw [StateTree.get_modify]
  by_cases own : other = sender
  · rw [if_pos own, if_pos own, own, found]
    rfl
  · rw [if_neg own, if_neg own]

instance {n : Nat} (other : AccountId) (nonce : Nat) : Stays (n ≤ nonceOf sender ·) (consumeNonce other nonce) where
  leads t u t' done few := by
    obtain ⟨given, after⟩ := consumeNonce_ok done
    rw [after]
    split
    · subst given
      exact Nat.le_succ_of_le (by rwa [‹sender = other›] at few)
    · exact few

instance processPlainDeposit_marks :
    Leads (fun _ => True) (b.processPlainDeposit signed) (fun _ => b.Marked signed.deposit.depositId) := by
  have last : ∀ registry, Leads (fun _ => True) (b.processDeposit registry signed.deposit)
      (fun _ => b.Marked signed.deposit.depositId) := by
    intro registry
    unfold processDeposit
    infer_instance
  unfold processPlainDeposit processStateApprovedSignedDeposit
  infer_instance

variable [Formats]

instance creditDeposit_marks (mapping : ExternalAssetMapping) (canonical : CanonicalAsset) (amount slot : Nat) :
    Leads (fun _ => True) (b.creditDeposit signed.deposit mapping canonical amount slot)
      (fun _ => b.Marked signed.deposit.depositId) := by
  unfold creditDeposit
  iterate 3 refine .bind (I := fun _ => True) inferInstance fun _ => ?_
  infer_instance

instance processDepositToOasset_marks (slot : Nat) :
    Leads (fun _ => True) (b.processDepositToOasset signed slot) (fun _ => b.Marked signed.deposit.depositId) := by
  have inner : Leads (fun _ => True) (b.processDepositToOassetInner signed slot)
      (fun _ => b.Marked signed.deposit.depositId) := by
    unfold processDepositToOassetInner
    iterate 12 refine .bind (I := fun _ => True) inferInstance fun _ => ?_
    infer_instance
  unfold processDepositToOasset
  infer_instance

theorem depositInner_marks [b.Unshared signed.deposit.depositId] {u : Unit} (done : b.depositInner signed t = (.ok u, t')) :
    ¬b.Marked signed.deposit.depositId t ∧ b.Marked signed.deposit.depositId t' := by
  have refuses : Leads (b.Marked signed.deposit.depositId) (b.depositInner signed) (fun _ _ => False) := by
    refine .bind (I := b.Marked signed.deposit.depositId) inferInstance fun mapping => ?_
    unfold processDepositToOasset processDepositToOassetInner processPlainDeposit processStateApprovedSignedDeposit
      processDeposit isProcessed
    cases mapping <;> dsimp only <;> infer_instance
  have marks : Leads (fun _ => True) (b.depositInner signed) (fun _ => b.Marked signed.deposit.depositId) := by
    refine .bind (I := fun _ => True) inferInstance fun mapping => ?_
    cases mapping <;> dsimp only <;> infer_instance
  exact ⟨refuses.leads done, marks.leads done trivial⟩

instance debitWithdrawal_id (sender : AccountId) (r : OAssetWithdrawRequest) (canonical : CanonicalAsset)
    (amount slot next : Nat) :
    Leads (fun _ => True) (b.debitWithdrawal sender r canonical amount slot next)
      (fun record _ => record.withdrawalId = next) := by
  unfold debitWithdrawal
  iterate 5 refine .bind (I := fun _ => True) inferInstance fun _ => ?_
  exact ⟨fun _ _ _ done _ => (ok_pure.mp done).1 ▸ rfl⟩

theorem requestOassetWithdrawal_id (sender : AccountId) (r : OAssetWithdrawRequest) (slot next : Nat) :
    Leads (fun _ => True) (b.requestOassetWithdrawal sender r slot next) (fun record _ => record.withdrawalId = next) := by
  have inner : Leads (fun _ => True) (b.requestOassetWithdrawalInner sender r slot next)
      (fun record _ => record.withdrawalId = next) := by
    unfold requestOassetWithdrawalInner
    iterate 12 refine .bind (I := fun _ => True) inferInstance fun _ => ?_
    infer_instance
  unfold requestOassetWithdrawal
  infer_instance

theorem executeBridgeDeposit_ok {payload : List UInt8} {u : Unit} (done : b.executeBridgeDeposit payload t = (.ok u, t')) :
    ∃ signed, decodeSignedDepositPayload payload = .ok signed ∧ b.depositInner signed t = (.ok u, t') := by
  obtain ⟨signed, _, decoded, done⟩ := ok_bind.mp (ok_atomically.mp done)
  obtain ⟨found, rfl⟩ := ok_fetch.mp (ok_adapt.mp decoded)
  exact ⟨signed, found, done⟩

theorem executeOassetWithdraw_ok {r : OAssetWithdrawRequest} {slot : Nat}
    {record : WithdrawalRecord} (done : b.executeOassetWithdraw sender r slot t = (.ok record, t')) :
    record.withdrawalId = b.number t .nextWithdrawal ∧ record.withdrawalId + 1 < 2 ^ 64 ∧
      ∃ mid, t' = b.setNumber .nextWithdrawal (record.withdrawalId + 1) mid := by
  obtain ⟨_, first, counted, done⟩ := ok_bind.mp (ok_atomically.mp done)
  have next : b.number first .nextWithdrawal = b.number t .nextWithdrawal :=
    Stays.ok (I := b.Word (b.slot .nextWithdrawal) (fun word => wordU64 word = b.number t .nextWithdrawal)) counted rfl
  rw [run_read] at done
  obtain ⟨found, _, looked, done⟩ := ok_bind.mp done
  obtain ⟨-, rfl⟩ := ok_fetch.mp (ok_adapt.mp looked)
  obtain ⟨_, _, present, done⟩ := ok_bind.mp done
  obtain ⟨-, rfl⟩ := ok_demand.mp present
  obtain ⟨made, mid, requested, done⟩ := ok_bind.mp done
  have given := (requestOassetWithdrawal_id sender r slot _).leads (ok_adapt.mp requested) trivial
  obtain ⟨_, _, added, done⟩ := ok_bind.mp done
  obtain ⟨sum, rfl⟩ := ok_demand.mp added
  obtain ⟨rfl, rfl⟩ := ok_pure.mp done
  obtain rfl := u64CheckedAdd_eq sum
  rw [given]
  exact ⟨next, u64CheckedAdd_lt sum, mid, rfl⟩

theorem deposit_keeps [b.Kept I] {payload : List UInt8} (marks : ∀ signed, decodeSignedDepositPayload payload = .ok signed →
    Stays I (write (b.markProcessed signed.deposit.depositId) : BridgeM Unit)) (before : I t) :
    I (b.step t (.deposit payload)) := by
  have stays : Stays I (b.executeBridgeDeposit payload) := by
    refine ⟨fun t u t' done before => ?_⟩
    obtain ⟨signed, decoded, credited⟩ := executeBridgeDeposit_ok done
    have := marks signed decoded
    exact Stays.ok credited before
  exact stays.of_clean (Clean.atomically _) t before

theorem step_keeps [b.Kept I] {tx : BridgeTx} (marks : ∀ id, Stays I (write (b.markProcessed id) : BridgeM Unit))
    (counts : ∀ n, Stays I (write (b.setNumber .nextWithdrawal n) : SystemM Unit))
    (uses : ∀ sender nonce, Stays I (consumeNonce sender nonce))
    (others : ∀ change, tx = .other change → I (change t)) (before : I t) : I (b.step t tx) := by
  cases tx with
  | deposit payload => exact deposit_keeps (fun _ _ => marks _) before
  | withdraw sender request blockSlot =>
    have stays : Stays I (b.executeOassetWithdraw sender request blockSlot) := by
      unfold executeOassetWithdraw
      infer_instance
    exact stays.of_clean (Clean.atomically _) t before
  | complete idcom payload =>
    exact Stays.of_clean (x := b.executeWithdrawalCompletion idcom payload) (Clean.atomically _) t before
  | other change => exact others change rfl

theorem withdraw_cases (sender : AccountId) (request : OAssetWithdrawRequest) (blockSlot : Nat) :
    b.step t (.withdraw sender request blockSlot) = t ∧ b.withdrawalId t (.withdraw sender request blockSlot) = none ∨
      ∃ record, b.executeOassetWithdraw sender request blockSlot t =
        (.ok record, b.step t (.withdraw sender request blockSlot)) ∧
        b.withdrawalId t (.withdraw sender request blockSlot) = some record.withdrawalId := by
  have clean : Clean (b.executeOassetWithdraw sender request blockSlot) := Clean.atomically _
  simp only [withdrawalId, step]
  cases done : b.executeOassetWithdraw sender request blockSlot t with
  | mk result after =>
    cases result with
    | error e => exact .inl ⟨clean _ _ _ done, rfl⟩
    | ok record => exact .inr ⟨record, rfl, rfl⟩

theorem marked_of_credits [b.Unshared id] {tx : BridgeTx} (credited : b.credits id t tx = true) :
    ¬b.Marked id t ∧ b.Marked id (b.step t tx) := by
  cases tx with
  | deposit payload =>
    simp only [credits, step] at credited ⊢
    split at credited
    · rename_i signed u decoded done
      obtain ⟨_, decoded', inner⟩ := executeBridgeDeposit_ok (Prod.ext done rfl)
      obtain rfl := Except.ok.inj (decoded'.symm.trans decoded)
      obtain rfl := of_decide_eq_true credited
      exact depositInner_marks inner
    · cases credited
  | _ => cases credited

/-- Over any run of system transactions and of other changes that leave the word under its id alone, a deposit is credited at
most once, whether its asset is mapped or not, and whatever unsigned fields or relayer it comes with again. -/
theorem deposit_credited_once (b : Bridge) (id : Hash) [b.Unshared id] (apart : b.slot .nextWithdrawal ≠ id) (t : StateTree)
    (txs : List BridgeTx) (meets : Meets b.step (fun t tx => b.Leaves t id tx) t txs) :
    occurrences b.step (b.credits id) t txs ≤ 1 := by
  refine occurrences_le_one (I := fun _ => True) (D := b.Marked id) (fun _ _ _ _ => trivial) ?_ ?_ ?_ trivial meets
  · exact fun t tx _ _ credited => (marked_of_credits credited).2
  · intro t tx _ leaves marked
    refine step_keeps (fun _ => inferInstance) (fun _ => .write fun _ => word_setStorage fun _ => apart)
      (fun _ _ => inferInstance) ?_ marked
    rintro change rfl
    exact word_of_same leaves marked
  · exact fun t tx _ _ marked => Bool.eq_false_iff.mpr fun credited => (marked_of_credits credited).1 marked

theorem counter_step [b.Unshared (b.slot .nextWithdrawal)] {tx : BridgeTx} (leaves : b.LeavesCounter t tx) :
    b.number t .nextWithdrawal ≤ b.number (b.step t tx) .nextWithdrawal ∧ ∀ n ∈ b.withdrawalId t tx,
      b.number t .nextWithdrawal ≤ n ∧ n < b.number (b.step t tx) .nextWithdrawal := by
  have kept (same : b.Word (b.slot .nextWithdrawal) (fun word => wordU64 word = b.number t .nextWithdrawal) (b.step t tx)) :
      b.number t .nextWithdrawal ≤ b.number (b.step t tx) .nextWithdrawal := Nat.le_of_eq same.symm
  cases tx with
  | deposit payload =>
    refine ⟨kept (deposit_keeps (fun signed decoded => ?_) rfl), nofun⟩
    exact .write fun _ => word_setStorage fun _ => leaves.2 payload signed rfl decoded
  | withdraw sender request blockSlot =>
    rcases withdraw_cases (b := b) (t := t) sender request blockSlot with ⟨same, none_⟩ | ⟨record, done, one⟩
    · rw [same, none_]
      exact ⟨Nat.le_refl _, nofun⟩
    · obtain ⟨given, small, mid, after⟩ := executeOassetWithdraw_ok done
      have counted : b.number (b.step t (.withdraw sender request blockSlot)) .nextWithdrawal = record.withdrawalId + 1 := by
        rw [after]
        unfold number cell setNumber setCell
        rw [getStorage_setStorage, if_pos ⟨rfl, rfl⟩, wordU64_u64Word small]
      rw [one, counted, given]
      refine ⟨Nat.le_succ _, ?_⟩
      rintro _ ⟨⟩
      exact ⟨Nat.le_refl _, Nat.lt_succ_self _⟩
  | complete idcom payload =>
    exact ⟨kept (Stays.of_clean (x := b.executeWithdrawalCompletion idcom payload) (Clean.atomically _) t rfl), nofun⟩
  | other change => exact ⟨kept (word_of_same leaves.1 rfl), nofun⟩

/-- The ids of the withdrawals of any run increase: none is given twice, and none below one that was given. -/
theorem withdrawal_ids_increase (b : Bridge) [b.Unshared (b.slot .nextWithdrawal)] (t : StateTree) (txs : List BridgeTx)
    (meets : Meets b.step b.LeavesCounter t txs) :
    (observations b.step (fun t tx => (b.withdrawalId t tx).toList) t txs).Pairwise (· < ·) :=
  (observations_increase (b.number · .nextWithdrawal) (fun _ _ => counter_step) meets).1

theorem nonce_step {tx : BridgeTx} (leaves : KeepsNonce sender t tx) :
    nonceOf sender t ≤ nonceOf sender (b.step t tx) ∧ ∀ n ∈ b.withdrawalNonce sender t tx,
      nonceOf sender t ≤ n ∧ n < nonceOf sender (b.step t tx) := by
  have marks {n : Nat} (id : Hash) : Stays (n ≤ nonceOf sender ·) (write (b.markProcessed id) : BridgeM Unit) :=
    .write fun _ few => few
  have counts {n : Nat} (next : Nat) : Stays (n ≤ nonceOf sender ·)
      (write (b.setNumber .nextWithdrawal next) : SystemM Unit) :=
    .write fun _ few => few
  refine ⟨step_keeps (I := (nonceOf sender t ≤ nonceOf sender ·)) marks counts (fun _ _ => inferInstance)
    ?_ (Nat.le_refl _), ?_⟩
  · rintro change rfl
    exact leaves
  · intro n used
    cases tx with
    | withdraw other request blockSlot =>
      simp only [withdrawalNonce] at used
      split at used
      · subst other
        rcases withdraw_cases (b := b) (t := t) sender request blockSlot with ⟨-, ids⟩ | ⟨record, done, ids⟩ <;>
          rw [ids] at used
        · cases used
        · cases used
          obtain ⟨_, first, counted, done⟩ := ok_bind.mp (ok_atomically.mp done)
          obtain ⟨given, after⟩ := consumeNonce_ok counted
          have more : request.nonce + 1 ≤ nonceOf sender first := by
            rw [after, if_pos rfl]
          exact ⟨Nat.le_of_eq given, Stays.ok (I := (request.nonce + 1 ≤ nonceOf sender ·)) done more⟩
      · cases used
    | _ => cases used

/-- The nonces of a sender's withdrawals increase over any run in which nothing else lowers its nonce: no request is
taken twice. -/
theorem withdrawal_nonces_increase (b : Bridge) (sender : AccountId) (t : StateTree) (txs : List BridgeTx)
    (meets : Meets b.step (KeepsNonce sender) t txs) :
    (observations b.step (fun t tx => (b.withdrawalNonce sender t tx).toList) t txs).Pairwise (· < ·) :=
  (observations_increase (nonceOf sender) (fun _ _ => nonce_step) meets).1

end Bridge

namespace SmallBridge

open Bridge

def sha (bytes : List UInt8) : Hash := BitVec.ofNat 256 (1 + bytes.foldl (fun n byte => 257 * n + byte.toNat) 0 % 2 ^ 64)

def bridge : Bridge where
  sha := sha
  derive := ⟨fun _ => 0, fun _ => 0, fun _ => ⟨0⟩, fun _ => ⟨0⟩, fun _ _ => 0, fun _ => 0⟩
  tokens := ⟨⟨0⟩, (· + 2 ^ 70), (· + 2 ^ 71), fun mint owner => mint * 2 ^ 80 + owner.bytes, fun _ _ _ => 1, fun _ => 2⟩
  erc20Address _ := 0
  verifySignature _ _ _ := .ok ()
  slotDurationMs := 400

def ether : ExternalAsset := .native .ethereum

def oeth : CanonicalAsset := ⟨7, [], 8, ⟨8⟩, true, .tier1⟩

def mapping : ExternalAssetMapping := ⟨ether, ⟨9⟩, 7, 8, 8, true, true, ⟨false, false, 900, 900, 5000, 5000, 1, 1⟩⟩

def signed (slot : Nat) : SignedDepositRecord := ⟨⟨2 ^ 255, 1, ether, 500, ⟨3⟩, slot⟩, 4, []⟩

/-- Records are words, one for each field; every asset here is ether. -/
def words {α : Type} (fields : α → List Nat) (build : (Nat → Nat) → α) : Codec α where
  encode a := (fields a).flatMap (leBytes 32)
  decode bytes := .ok (build fun i => leNat (slice bytes (32 * i) 32))

instance : Formats where
  canonicalCodec := words (fun a => [a.id.toNat, a.decimals.toNat, a.mint.bytes.toNat, a.active.toNat])
    fun f => ⟨.ofNat 256 (f 0), [], .ofNat (f 1), ⟨.ofNat 256 (f 2)⟩, f 3 = 1, .tier1⟩
  mappingCodec := words (fun m => [m.reserveMint.bytes.toNat, m.canonicalAsset.toNat, m.externalDecimals.toNat,
      m.canonicalDecimals.toNat, m.mintEnabled.toNat, m.withdrawEnabled.toNat, m.risk.depositPaused.toNat,
      m.risk.withdrawPaused.toNat, m.risk.maxSingleDeposit, m.risk.maxSingleWithdrawal, m.risk.dailyDepositLimit,
      m.risk.dailyWithdrawalLimit, m.risk.finalityBlocks, m.risk.requiredRelayerQuorum.toNat])
    fun f => ⟨ether, ⟨.ofNat 256 (f 0)⟩, .ofNat 256 (f 1), .ofNat (f 2), .ofNat (f 3), f 4 = 1, f 5 = 1,
      ⟨f 6 = 1, f 7 = 1, f 8, f 9, f 10, f 11, f 12, .ofNat (f 13)⟩⟩
  positionCodec := words (fun p => [p.canonicalAsset.toNat, p.totalDeposited, p.totalWithdrawn, p.pendingWithdrawal,
      p.available, p.lastUpdatedSlot]) fun f => ⟨ether, .ofNat 256 (f 0), f 1, f 2, f 3, f 4, f 5⟩
  supplyCodec := words (fun s => [s.canonicalAsset.toNat, s.totalMinted, s.totalBurned, s.activeSupply, s.safetyBuffer])
    fun f => ⟨.ofNat 256 (f 0), f 1, f 2, f 3, f 4⟩
  reserveTotalCodec := words (fun r => [r.canonicalAsset.toNat, r.backingTotal]) fun f => ⟨.ofNat 256 (f 0), f 1⟩
  withdrawalCodec := words (fun r => [r.withdrawalId, r.intentId.toNat, r.amount, r.sender.bytes.toNat, leNat r.externalDest,
      r.requestedAt, r.completed.toNat])
    fun f => ⟨f 0, .ofNat 256 (f 1), ether, f 2, ⟨.ofNat 256 (f 3)⟩, leBytes 20 (f 4), f 5, f 6 = 1⟩
  signedDepositCodec := words (fun s => [s.deposit.depositId.toNat, s.deposit.intentId.toNat, s.deposit.amount,
      s.deposit.recipient.bytes.toNat, s.deposit.processedAt, s.relayerPubkey.toNat])
    fun f => ⟨⟨.ofNat 256 (f 0), .ofNat 256 (f 1), ether, f 2, ⟨.ofNat 256 (f 3)⟩, f 4⟩, .ofNat 256 (f 5), []⟩
  completionCodec := words (fun c => [c.withdrawalId, c.externalTxHash.toNat, c.withdrawalRecordHash.toNat,
      leNat c.releasedRecipient, c.releasedAmount, c.relayerPubkey.toNat])
    fun f => ⟨f 0, .ethereum, .ofNat 256 (f 1), .ofNat 256 (f 2), ether, leBytes 20 (f 3), f 4, [], .ofNat 256 (f 5), []⟩

def tree : StateTree :=
  let t := (bridge.tokens.createMint bridge.derive bridge.erc20Address (ensureAccount bridge.derive .new ⟨3⟩) 8 8
    bridge.authorityId.bytes).2
  let t := bridge.putRecord canonicalCodec (.record (.canonical 7)) oeth t
  let t := bridge.putRecord mappingCodec (.record (.mapping ether)) mapping t
  bridge.setCell (.relayer 4) marker t

def request (nonce : Nat) : OAssetWithdrawRequest := ⟨nonce, 1, 7, 100, ether, List.replicate 20 5⟩

def framed (opcode : UInt8) (record : List UInt8) : List UInt8 := opcode :: (leBytes 4 record.length ++ record)

def payload (slot : Nat) : List UInt8 := framed opBridgeDeposit (signedDepositCodec.encode (signed slot))

def completion : WithdrawalCompletionRecord :=
  ⟨0, .ethereum, 6, bridge.hashWithdrawalRecord ⟨0, 1, ether, 100, ⟨3⟩, List.replicate 20 5, 2, false⟩, ether,
    List.replicate 20 5,
    100, [], 4, []⟩

/-- The deposit comes a second time with another slot, and the first withdrawal is completed before the second one. -/
def txs : List BridgeTx :=
  [.deposit (payload 1), .withdraw ⟨3⟩ (request 0) 2, .deposit (payload 2),
    .complete (bridge.withdrawalCompletionTxIdcom completion)
      (framed opWithdrawalCompleted (completionCodec.encode completion)),
    .withdraw ⟨3⟩ (request 1) 3]

theorem unshared {w : Hash} (high : 2 ^ 64 < w.toNat) : bridge.Unshared w where
  slots c other := by
    have hashed : ∃ bytes, bridge.slot c = sha bytes := by
      cases c with
      | chunks place | length place | chunk place _ => cases place <;> exact ⟨_, rfl⟩
      | nextWithdrawal => exact absurd rfl other
      | _ => exact ⟨_, rfl⟩
    rintro rfl
    obtain ⟨bytes, same⟩ := hashed
    rw [same, sha, BitVec.toNat_ofNat] at high
    omega
  ledger := by decide +kernel

end SmallBridge

open Bridge SmallBridge

theorem small_bridge_credits_once : occurrences bridge.step (bridge.credits (2 ^ 255)) tree txs = 1 ∧
    occurrences bridge.step (bridge.credits (2 ^ 255)) tree txs ≤ 1 :=
  have := unshared (w := 2 ^ 255) (by decide +kernel)
  ⟨by decide +kernel, deposit_credited_once bridge _ (by decide +kernel) tree txs
    ⟨trivial, trivial, trivial, trivial, trivial, trivial⟩⟩

theorem small_bridge_ids_increase : observations bridge.step (fun t tx => (bridge.withdrawalId t tx).toList)
    tree txs = [0, 1] ∧
    (observations bridge.step (fun t tx => (bridge.withdrawalId t tx).toList) tree txs).Pairwise (· < ·) := by
  have := unshared (w := bridge.slot .nextWithdrawal) (by decide +kernel)
  have apart (t : StateTree) (slot : Nat) (decodes : decodeSignedDepositPayload (payload slot) = .ok (signed slot)) :
      bridge.LeavesCounter t (.deposit (payload slot)) := by
    refine ⟨trivial, ?_⟩
    intro _ _ same decoded
    rw [← BridgeTx.deposit.inj same] at decoded
    obtain rfl := Except.ok.inj (decodes.symm.trans decoded)
    change (2 ^ 255 : Hash) ≠ bridge.slot .nextWithdrawal
    decide +kernel
  exact ⟨by decide +kernel, withdrawal_ids_increase bridge tree txs ⟨apart _ 1 (by decide +kernel), ⟨trivial, nofun⟩,
    apart _ 2 (by decide +kernel), ⟨trivial, nofun⟩, ⟨trivial, nofun⟩, trivial⟩⟩

theorem small_bridge_nonces_increase :
    observations bridge.step (fun t tx => (bridge.withdrawalNonce ⟨3⟩ t tx).toList) tree txs = [0, 1] ∧
      (observations bridge.step (fun t tx => (bridge.withdrawalNonce ⟨3⟩ t tx).toList) tree txs).Pairwise (· < ·) :=
  ⟨by decide +kernel, withdrawal_nonces_increase bridge ⟨3⟩ tree txs ⟨trivial, trivial, trivial, trivial, trivial, trivial⟩⟩

end AceChain.Defi
