import AceChain.Hfi.Supply

namespace AceChain.Hfi

open AceChain.Runtime State StateTree Engine Lib Handler OnChainIntent Hfi

structure SameTables (t t' : StateTree) : Prop where
  intents : t'.hfiIntents = t.hfiIntents
  recipients : t'.hfiRecipients = t.hfiRecipients
  index : t'.hfiIdcomIndex = t.hfiIdcomIndex

instance : IsPreorder StateTree SameTables where
  refl _ := ⟨rfl, rfl, rfl⟩
  trans _ _ _ first second :=
    ⟨second.intents.trans first.intents, second.recipients.trans first.recipients, second.index.trans first.index⟩

theorem ensureAccount_sameTables (derive : Derivations) (t : StateTree) (id : AccountId) :
    SameTables t (ensureAccount derive t id) := by
  unfold ensureAccount
  split
  · exact ⟨rfl, rfl, rfl⟩
  · exact ⟨rfl, rfl, rfl⟩

theorem consumeNonce_sameTables (sender : AccountId) (nonce : Nat) : Keeps SameTables (consumeNonce sender nonce) := by
  refine .bind (.demand _ _) fun account => .bind (.require _ _) fun _ => .bind (.demand _ _) fun next =>
    .bind ?_ fun _ => .pure _
  exact fun _ => ⟨rfl, rfl, rfl⟩

namespace Hook

variable {hook : Hook} {sender : AccountId} {nonce slot amount : Nat} {id evidence : Hash} {changes : List StateChange}
  {t t' : StateTree}

theorem nativeTransfer_sameTables (p : Payment) : Keeps SameTables (hook.nativeTransfer p) := by
  refine .bind ?_ fun _ => .bind (.read _) fun _ => .bind (.require _ _) fun _ => .bind (.read _) fun _ =>
    .bind (.demand _ _) fun _ => .bind (.demand _ _) fun _ => .bind ?_ fun _ => .bind (.demand _ _) fun _ =>
      .bind ?_ fun _ => .pure _
  · exact fun t => ensureAccount_sameTables hook.derive t p.destination
  · exact fun _ => ⟨rfl, rfl, rfl⟩
  · exact fun _ => ⟨rfl, rfl, rfl⟩

structure Stores (slot : Nat) (t t' : StateTree) (i : OnChainIntent) : Prop where
  sized : slot < 2 ^ 64 → i.Sized
  stored : t'.hfiIntents = t.hfiIntents.insert i.intentId i.encode
  recipients : t'.hfiRecipients = t.hfiRecipients
  index : t'.hfiIdcomIndex = t.hfiIdcomIndex

variable {i : OnChainIntent}

theorem storeIntent_stores {mid : StateTree} (sized : slot < 2 ^ 64 → i.Sized)
    (same : SameTables t mid) (stored : storeIntent i mid = t') : Stores slot t t' i := by
  subst stored
  refine ⟨sized, ?_, same.recipients, same.index⟩
  unfold storeIntent hfiIntentPut
  rw [same.intents]

theorem sized_of_load (loaded : loadIntent t id = .ok i) : i.Sized := by
  unfold loadIntent at loaded
  split at loaded
  · cases loaded
  · exact sized_of_decode loaded

theorem handleFund_ok (done : hook.handleFund sender nonce id evidence amount t = (.ok changes, t')) :
    ∃ i, loadIntent t id = .ok i ∧ i.status = .created ∧ Stores slot t t' { i with status := .funded } := by
  unfold handleFund at done
  simp only [ok_bind, ok_fetch, ok_require, ok_read, ok_write, ok_pure] at done
  obtain ⟨i, _, ⟨loaded, rfl⟩, _, _, ⟨created, rfl⟩, _, _, ⟨-, rfl⟩, _, _, ⟨-, rfl⟩, _, _, ⟨-, rfl⟩, _, _, ⟨-, rfl⟩,
    _, _, ⟨-, rfl⟩, _, _, counted, _, _, stored, -, rfl⟩ := done
  have sized := sized_of_load loaded
  have same := Keeps.of_ok (consumeNonce_sameTables _ _) counted
  exact ⟨i, loaded, created, storeIntent_stores
    (fun _ => ⟨sized.1, sized.2, sized.3, sized.4, sized.5, sized.6, sized.7⟩) same stored⟩

theorem handleExpire_ok (done : handleExpire id slot t = (.ok changes, t')) :
    ∃ i, loadIntent t id = .ok i ∧ i.status = .funded ∧ i.expiry < slot ∧ Stores slot t t' { i with status := .expired } := by
  unfold handleExpire at done
  simp only [ok_bind, ok_fetch, ok_require, ok_write, ok_pure] at done
  obtain ⟨i, _, ⟨loaded, rfl⟩, _, _, ⟨funded, rfl⟩, _, _, ⟨late, rfl⟩, _, _, stored, -, rfl⟩ := done
  have sized := sized_of_load loaded
  exact ⟨i, loaded, funded, late,
    storeIntent_stores (fun _ => ⟨sized.1, sized.2, sized.3, sized.4, sized.5, sized.6, sized.7⟩)
      (refl_of SameTables t) stored⟩

theorem authoriseRefund_sameTables (i : OnChainIntent) (authorizer dest : AccountId)
    (refundAuth : Option (List UInt8 × List UInt8)) :
    Keeps SameTables (hook.authoriseRefund sender nonce i id authorizer dest refundAuth) := by
  cases refundAuth with
  | some auth => exact .bind (.fetch _) fun _ => .pure _
  | none => exact .bind (.require _ _) fun _ => .bind (consumeNonce_sameTables _ _) fun _ => .pure _

variable {refundAuth : Option (List UInt8 × List UInt8)}

theorem refundPlan_ok {p : Payment}
    (done : hook.refundPlan sender nonce id refundAuth slot t = (.ok (p, i, changes), t')) :
    loadIntent t id = .ok i ∧
      (i.status = .expired ∨ (i.status = .funded ∨ i.status = .created) ∧ i.expiry < slot) ∧
      p.source = i.depositAddress ∧ i.refundDest = some p.destination ∧ p.amount = i.amount ∧ SameTables t t' := by
  unfold refundPlan at done
  simp only [ok_bind, ok_fetch, ok_require, ok_demand, ok_pure] at done
  obtain ⟨i, _, ⟨loaded, rfl⟩, _, _, ⟨eligible, rfl⟩, dest, _, ⟨recorded, rfl⟩, _, _, ⟨-, rfl⟩, _, _, authorised, planned,
    rfl⟩ := done
  cases planned
  refine ⟨loaded, ?_, rfl, recorded, rfl, Keeps.of_ok (authoriseRefund_sameTables _ _ _ _) authorised⟩
  exact eligible.imp_right (fun holds => holds.2)

theorem handleRefund_ok
    (done : hook.handleRefund sender nonce id refundAuth slot t = (.ok changes, t')) :
    ∃ i p i', loadIntent t id = .ok i ∧ hook.payout sender (.refund nonce id refundAuth) slot t = some p ∧
      (i.status = .expired ∨ (i.status = .funded ∨ i.status = .created) ∧ i.expiry < slot) ∧
      p.source = i.depositAddress ∧ i.refundDest = some p.destination ∧ p.amount = i.amount ∧
      i'.intentId = i.intentId ∧ i'.status = .refunded ∧ Stores slot t t' i' := by
  unfold handleRefund at done
  simp only [ok_bind] at done
  obtain ⟨⟨p, i, counted⟩, _, planned, moved, _, transferred, finished⟩ := done
  obtain ⟨loaded, eligible, source, dest, amount, same⟩ := refundPlan_ok planned
  unfold finishRefund at finished
  simp only [ok_bind, ok_demand, ok_write, ok_pure] at finished
  obtain ⟨w, _, ⟨withdrawn, rfl⟩, n, _, ⟨counted, rfl⟩, _, _, stored, -, rfl⟩ := finished
  have paid := Keeps.of_ok (nativeTransfer_sameTables _) transferred
  have sized := sized_of_load loaded
  refine ⟨i, p, { i with status := .refunded, withdrawnAmount := w, refundNonce := n }, loaded, ?_, eligible, source, dest,
    amount, rfl, rfl, storeIntent_stores ?_ (trans_of SameTables same paid) stored⟩
  · change paymentOf (hook.refundPlan sender nonce id refundAuth slot t) = some p
    rw [planned]
    rfl
  · exact fun _ => ⟨sized.1, sized.2, sized.3, sized.4, sized.5, u64CheckedAdd_lt counted, u64CheckedAdd_lt withdrawn⟩

theorem destinationAccount_sameTables (address : VmAddress) (auth : Option TaggedPubkey) :
    Keeps SameTables (hook.destinationAccount address auth) := by
  cases address with
  | native id =>
    refine .bind ?_ fun _ => .pure _
    intro t
    unfold materialise
    split
    · exact ⟨rfl, rfl, rfl⟩
    · exact ensureAccount_sameTables hook.derive t id
  | evm address => exact .bind (fun t => ensureAccount_sameTables hook.derive t _) fun _ => .pure _
  | svm id => exact .bind (fun t => ensureAccount_sameTables hook.derive t _) fun _ => .pure _
  | bvm id => exact .fetch _
  | tvm address => exact .fetch _

theorem claimPlan_ok {dest : List UInt8} {auth : Option TaggedPubkey} {commitment : Hash} {p : Payment}
    (done : hook.claimPlan sender id dest auth commitment slot t = (.ok (p, i), t')) :
    loadIntent t id = .ok i ∧ i.status = .funded ∧ slot ≤ i.expiry ∧ p.source = i.depositAddress ∧ p.amount = i.amount ∧
      SameTables t t' := by
  unfold claimPlan at done
  simp only [ok_bind, ok_fetch, ok_require, ok_pure] at done
  obtain ⟨_, _, ⟨-, rfl⟩, i, _, ⟨loaded, rfl⟩, _, _, ⟨funded, rfl⟩, _, _, ⟨early, rfl⟩, _, _, ⟨-, rfl⟩, _, _, ⟨-, rfl⟩,
    _, _, found, planned, rfl⟩ := done
  cases planned
  exact ⟨loaded, funded, early, rfl, rfl, Keeps.of_ok (destinationAccount_sameTables _ _) found⟩

theorem handleClaim_ok {dest : List UInt8} {auth : Option TaggedPubkey} {commitment : Hash}
    (done : hook.handleClaim sender id dest auth commitment slot t = (.ok changes, t')) :
    ∃ i p i', loadIntent t id = .ok i ∧ hook.payout sender (.claim id dest auth commitment) slot t = some p ∧
      i.status = .funded ∧ slot ≤ i.expiry ∧ p.source = i.depositAddress ∧ p.amount = i.amount ∧
      i'.intentId = i.intentId ∧ i'.status = .claimed ∧ Stores slot t t' i' := by
  unfold handleClaim at done
  simp only [ok_bind] at done
  obtain ⟨⟨p, i⟩, _, planned, moved, _, transferred, finished⟩ := done
  obtain ⟨loaded, funded, early, source, amount, same⟩ := claimPlan_ok planned
  unfold finishClaim at finished
  simp only [ok_bind, ok_demand, ok_write, ok_pure] at finished
  obtain ⟨w, _, ⟨withdrawn, rfl⟩, n, _, ⟨counted, rfl⟩, _, _, stored, _, _, ⟨-, rfl⟩, -, rfl⟩ := finished
  have paid := Keeps.of_ok (nativeTransfer_sameTables _) transferred
  have sized := sized_of_load loaded
  refine ⟨i, p, { i with status := .claimed, owner := some p.destination, withdrawnAmount := w, claimNonce := n }, loaded,
    ?_, funded, early, source, amount, rfl, rfl, storeIntent_stores ?_ (trans_of SameTables same paid) stored⟩
  · change paymentOf (hook.claimPlan sender id dest auth commitment slot t) = some p
    rw [planned]
    rfl
  · exact fun _ => ⟨sized.1, sized.2, sized.3, sized.4, u64CheckedAdd_lt counted, sized.6, u64CheckedAdd_lt withdrawn⟩

structure CreateSized (f : HfiCreate) : Prop where
  amount : f.amount < 2 ^ 64
  bindingEpoch : f.bindingEpoch < 2 ^ 64
  expirySlot : f.expirySlot < 2 ^ 64

variable {f : HfiCreate}

theorem createChecks_ok {chain : ChainId} {record : Option (List UInt8)}
    (done : createChecks f slot t = (.ok (chain, record), t')) :
    t.hfiIntent f.intentId = none ∧ t = t' ∧
      record = if f.identityCommitment = 0 then none else t.hfiRecipientByIdcom f.identityCommitment := by
  unfold createChecks at done
  simp only [ok_bind, ok_read, ok_require, ok_demand, ok_pure] at done
  obtain ⟨_, _, ⟨-, rfl⟩, _, _, ⟨-, rfl⟩, known, _, ⟨looked, rfl⟩, _, _, ⟨absent, rfl⟩, _, _, ⟨-, rfl⟩, _, _, ⟨found, rfl⟩,
    result, rfl⟩ := done
  cases result
  refine ⟨?_, rfl, found.symm⟩
  rw [absent] at looked
  exact Option.not_isSome_iff_eq_none.mp (by rw [looked]; decide)

theorem autoClaimPlan_ok {record : List UInt8} {p : Payment} {decoded : DecodedRecipient}
    {counted : StateChange} (done : autoClaimPlan sender f record t = (.ok (p, decoded, counted), t')) :
    decodeRecipientRecord record = .ok decoded ∧ decoded.identityCommitment = f.identityCommitment ∧
      p = ⟨sender, decoded.accountId, f.amount⟩ ∧ SameTables t t' := by
  unfold autoClaimPlan at done
  simp only [ok_bind, ok_fetch, ok_require, ok_pure] at done
  obtain ⟨_, _, ⟨found, rfl⟩, _, _, ⟨own, rfl⟩, _, _, ⟨-, rfl⟩, _, _, nonce, planned, rfl⟩ := done
  cases planned
  exact ⟨found, own, rfl, Keeps.of_ok (consumeNonce_sameTables _ _) nonce⟩

theorem bindingEpoch_lt {record : List UInt8} {decoded : DecodedRecipient}
    (found : decodeRecipientRecord record = .ok decoded) : decoded.bindingEpoch < 2 ^ 64 := by
  unfold decodeRecipientRecord at found
  split at found
  · cases found
  · cases found
    exact readU64_lt _

theorem payout_create (hook : Hook) (sender : AccountId) {chain : ChainId} {record : Option (List UInt8)}
    (checked : createChecks f slot t = (.ok (chain, record), t')) :
    hook.payout sender (.create f) slot t = record.bind (fun record => paymentOf (autoClaimPlan sender f record t')) := by
  unfold payout
  dsimp only
  rw [checked]
  cases record <;> rfl

theorem handleCreate_ok (sized : CreateSized f)
    (done : hook.handleCreate sender f slot t = (.ok changes, t')) :
    t.hfiIntent f.intentId = none ∧ ∃ i, i.intentId = f.intentId ∧ Stores slot t t' i ∧
      ((i.status = .created ∧ hook.payout sender (.create f) slot t = none) ∨
        (i.status = .claimed ∧ ∃ p, hook.payout sender (.create f) slot t = some p ∧ p.source = sender ∧
          p.amount = f.amount)) := by
  unfold handleCreate at done
  simp only [ok_bind] at done
  obtain ⟨⟨chain, record⟩, _, checked, rest⟩ := done
  obtain ⟨fresh, rfl, -⟩ := createChecks_ok checked
  refine ⟨fresh, ?_⟩
  have planned := payout_create hook sender checked
  cases record with
  | none =>
    unfold createEscrow at rest
    simp only [ok_bind, ok_require, ok_write, ok_pure] at rest
    obtain ⟨_, _, ⟨-, rfl⟩, _, _, ⟨-, rfl⟩, _, _, counted, _, _, ensured, _, _, stored, -, rfl⟩ := rest
    have same : SameTables t _ := trans_of SameTables (Keeps.of_ok (consumeNonce_sameTables _ _) counted)
      (ensured ▸ ensureAccount_sameTables hook.derive _ _)
    exact ⟨escrowed f chain slot, rfl, storeIntent_stores (fun now => ⟨sized.amount, sized.bindingEpoch, sized.expirySlot, now,
      Nat.two_pow_pos 64, Nat.two_pow_pos 64, Nat.two_pow_pos 64⟩) same stored, .inl ⟨rfl, planned⟩⟩
  | some record =>
    unfold autoClaim at rest
    simp only [ok_bind] at rest
    obtain ⟨⟨p, decoded, counted⟩, _, plan, _, _, transferred, finished⟩ := rest
    obtain ⟨found, -, payment, same⟩ := autoClaimPlan_ok plan
    unfold finishAutoClaim at finished
    simp only [ok_bind, ok_write, ok_pure] at finished
    obtain ⟨_, _, stored, -, rfl⟩ := finished
    have paid := Keeps.of_ok (nativeTransfer_sameTables _) transferred
    refine ⟨autoClaimed f chain slot decoded, rfl, storeIntent_stores (fun now => ⟨sized.amount, bindingEpoch_lt found,
      sized.expirySlot, now, Nat.two_pow_pos 64, Nat.two_pow_pos 64, sized.amount⟩) (trans_of SameTables same paid) stored,
      .inr ⟨rfl, p, ?_, ?_⟩⟩
    · rw [planned, Option.bind_some, plan]
      rfl
    · rw [payment]
      exact ⟨rfl, rfl⟩

theorem handleRegisterRecipient_ok {f : HfiRegistration}
    (done : hook.handleRegisterRecipient sender f slot t = (.ok changes, t')) :
    hook.checkRegistration t f slot = .ok () ∧
      SameTables (t.hfiRecipientPut (hook.onchainIdHash f.identifier) f.identityCommitment
        (encodeRecipientRecord (hook.recipientOf f) f.pubkey f.signature)) t' := by
  unfold handleRegisterRecipient at done
  simp only [ok_bind, ok_fetch, ok_write, ok_pure] at done
  obtain ⟨_, _, ⟨checked, rfl⟩, _, _, rfl, _, _, counted, -, rfl⟩ := done
  exact ⟨checked, Keeps.of_ok (consumeNonce_sameTables _ _) counted⟩

theorem u64At_lt (payload : List UInt8) (start : Nat) : u64At payload start < 2 ^ 64 := readU64_lt _

def NumbersFit : HfiOp → Prop
  | .create f => CreateSized f
  | .registerRecipient f => f.bindingEpoch < 2 ^ 64
  | _ => True

theorem numbersFit_of_decode {payload : List UInt8} {op : HfiOp} (decoded : HfiOp.decode payload = .ok op) :
    NumbersFit op := by
  unfold HfiOp.decode at decoded
  split at decoded
  · cases decoded
  split at decoded
  · unfold HfiOp.decodeClaim at decoded
    dsimp only at decoded
    repeat' split at decoded
    all_goals cases decoded
    trivial
  split at decoded
  · unfold HfiOp.decodeCreate at decoded
    split at decoded
    · cases decoded
    · cases decoded
      exact ⟨u64At_lt _ _, u64At_lt _ _, u64At_lt _ _⟩
  split at decoded
  · unfold HfiOp.decodeFund at decoded
    split at decoded <;> cases decoded
    trivial
  split at decoded
  · unfold HfiOp.decodeExpire at decoded
    split at decoded <;> cases decoded
    trivial
  split at decoded
  · unfold HfiOp.decodeRefund at decoded
    dsimp only at decoded
    repeat' split at decoded
    all_goals cases decoded
    all_goals trivial
  split at decoded
  · unfold HfiOp.decodeRegisterRecipient at decoded
    dsimp only at decoded
    repeat' split at decoded
    all_goals cases decoded
    exact u64At_lt _ _
  · cases decoded

theorem numbersFit_of_operation {tx : Transaction} {op : HfiOp} (found : operation tx = some op) : NumbersFit op := by
  unfold operation at found
  split at found
  · cases found
  split at found
  · cases found
  cases decoded : HfiOp.decode tx.payload with
  | error error =>
    rw [decoded] at found
    cases found
  | ok op' =>
    rw [decoded] at found
    cases found
    exact numbersFit_of_decode decoded

end Hook

def statusOf (t : StateTree) (id : Hash) : Option IntentStatus :=
  match loadIntent t id with
  | .ok i => some i.status
  | .error _ => none

inductive Moves : Option IntentStatus → Option IntentStatus → Prop where
  | stay (status : Option IntentStatus) : Moves status status
  | create : Moves none (some .created)
  | autoClaim : Moves none (some .claimed)
  | fund : Moves (some .created) (some .funded)
  | claim : Moves (some .funded) (some .claimed)
  | expire : Moves (some .funded) (some .expired)
  | refundUnfunded : Moves (some .created) (some .refunded)
  | refundFunded : Moves (some .funded) (some .refunded)
  | refundExpired : Moves (some .expired) (some .refunded)

/-- An operation of the hook, or anything else, which may do to the accounts what it likes but does not touch the tables
of the hook. -/
inductive HfiEvent where
  | operation (tx : Transaction) (slot : Nat)
  | elsewhere (next : StateTree)

structure Clocked where
  tree : StateTree
  clock : Nat

structure WellStored (s : Clocked) : Prop where
  keyed : Keyed s.tree
  intents : ∀ (id : Hash) (bytes : List UInt8), s.tree.hfiIntents[id]? = some bytes →
    ∃ i, decode bytes = .ok i ∧ i.intentId = id ∧ (i.status = .expired → i.expiry < s.clock)

def InOrder (s : Clocked) : HfiEvent → Prop
  | .operation _ slot => s.clock ≤ slot ∧ slot < 2 ^ 64
  | .elsewhere next => Keyed next

def balancesDiffer (t t' : StateTree) : Bool :=
  (t.accounts.keys ++ t'.accounts.keys).any (fun id => t'.balanceOf id ≠ t.balanceOf id)

theorem balancesDiffer_iff {t t' : StateTree} : balancesDiffer t t' = true ↔ ∃ id, t'.balanceOf id ≠ t.balanceOf id := by
  have absent : ∀ {t : StateTree} {id}, id ∉ t.accounts.keys → t.balanceOf id = 0 := by
    intro t id missing
    rw [Std.TreeMap.mem_keys, Std.TreeMap.mem_iff_isSome_getElem?, Option.not_isSome_iff_eq_none] at missing
    rw [balanceOf_eq, StateTree.get, missing]
    rfl
  unfold balancesDiffer
  rw [List.any_eq_true]
  constructor
  · rintro ⟨id, -, differ⟩
    exact ⟨id, of_decide_eq_true differ⟩
  · rintro ⟨id, differ⟩
    refine ⟨id, ?_, decide_eq_true differ⟩
    by_contra missing
    rw [List.mem_append, not_or] at missing
    exact differ ((absent missing.2).trans (absent missing.1).symm)

namespace Hook

variable (hook : Hook)

def lifeStep (s : Clocked) : HfiEvent → Clocked
  | .operation tx slot => ⟨hook.land s.tree tx slot, slot⟩
  | .elsewhere next =>
    ⟨{ next with
        hfiIntents := s.tree.hfiIntents
        hfiRecipients := s.tree.hfiRecipients
        hfiIdcomIndex := s.tree.hfiIdcomIndex }, s.clock⟩

def performed (s : Clocked) : HfiEvent → Option HfiOp
  | .operation tx slot => if (hook.execute s.tree tx slot).1.isOk then operation tx else none
  | .elsewhere _ => none

def subject : HfiOp → Option Hash
  | .claim id _ _ _ => some id
  | .create f => some f.intentId
  | .fund _ id _ _ => some id
  | .expire id => some id
  | .refund _ id _ => some id
  | .registerRecipient _ => none

def creates (id : Hash) (s : Clocked) (e : HfiEvent) : Bool :=
  (hook.performed s e).any (fun op => match op with
    | .create f => f.intentId = id
    | _ => false)

def concerns (id : Hash) : HfiEvent → Bool
  | .operation tx _ => (operation tx).any (fun op => subject op = some id)
  | .elsewhere _ => false

/-- An operation on the intent, whether it goes through or not, that leaves some account with another balance. -/
def paysFor (id : Hash) (s : Clocked) (e : HfiEvent) : Bool :=
  concerns id e && balancesDiffer s.tree (hook.lifeStep s e).tree

def Lawful (id : Hash) (s : Clocked) (e : HfiEvent) : Prop :=
  ∀ tx slot op, e = .operation tx slot → hook.performed s e = some op → subject op = some id →
    let after := (hook.lifeStep s e).tree
    match op with
    | .claim _ _ _ _ => ∃ i dest, loadIntent s.tree id = .ok i ∧ i.status = .funded ∧ slot ≤ i.expiry ∧
        Pays s.tree after ⟨i.depositAddress, dest, i.amount⟩
    | .refund _ _ _ => ∃ i dest, loadIntent s.tree id = .ok i ∧ i.expiry < slot ∧ i.refundDest = some dest ∧
        Pays s.tree after ⟨i.depositAddress, dest, i.amount⟩
    | .create f => KeepsBalances s.tree after ∧ statusOf after id = some .created ∨
        ∃ dest, Pays s.tree after ⟨tx.sender, dest, f.amount⟩ ∧ statusOf after id = some .claimed
    | _ => KeepsBalances s.tree after

variable {hook} {t t' : StateTree} {sender : AccountId} {slot : Nat} {op : HfiOp} {id : Hash} {i : OnChainIntent}

inductive Acts (hook : Hook) (t : StateTree) (sender : AccountId) (slot : Nat) (i : OnChainIntent) : HfiOp → Prop where
  | escrow (f : HfiCreate) (fresh : t.hfiIntent f.intentId = none) (own : i.intentId = f.intentId)
      (status : i.status = .created) (unpaid : hook.payout sender (.create f) slot t = none) :
        Acts hook t sender slot i (.create f)
  | autoClaim (f : HfiCreate) (p : Payment) (fresh : t.hfiIntent f.intentId = none) (own : i.intentId = f.intentId)
      (status : i.status = .claimed) (paid : hook.payout sender (.create f) slot t = some p) (source : p.source = sender)
      (amount : p.amount = f.amount) : Acts hook t sender slot i (.create f)
  | fund (nonce : Nat) (id evidence : Hash) (deposit : Nat) (old : OnChainIntent) (loaded : loadIntent t id = .ok old)
      (created : old.status = .created) (own : i.intentId = old.intentId) (status : i.status = .funded) :
      Acts hook t sender slot i (.fund nonce id evidence deposit)
  | expire (id : Hash) (old : OnChainIntent) (loaded : loadIntent t id = .ok old) (funded : old.status = .funded)
      (late : i.expiry < slot) (own : i.intentId = old.intentId) (status : i.status = .expired) :
      Acts hook t sender slot i (.expire id)
  | refund (nonce : Nat) (id : Hash) (refundAuth : Option (List UInt8 × List UInt8)) (old : OnChainIntent) (p : Payment)
      (loaded : loadIntent t id = .ok old)
      (eligible : old.status = .expired ∨ (old.status = .funded ∨ old.status = .created) ∧ old.expiry < slot)
      (paid : hook.payout sender (.refund nonce id refundAuth) slot t = some p) (source : p.source = old.depositAddress)
      (dest : old.refundDest = some p.destination) (amount : p.amount = old.amount) (own : i.intentId = old.intentId)
      (status : i.status = .refunded) : Acts hook t sender slot i (.refund nonce id refundAuth)
  | claim (id : Hash) (dest : List UInt8) (auth : Option TaggedPubkey) (commitment : Hash) (old : OnChainIntent)
      (p : Payment) (loaded : loadIntent t id = .ok old) (funded : old.status = .funded) (early : slot ≤ old.expiry)
      (paid : hook.payout sender (.claim id dest auth commitment) slot t = some p) (source : p.source = old.depositAddress)
      (amount : p.amount = old.amount) (own : i.intentId = old.intentId) (status : i.status = .claimed) :
      Acts hook t sender slot i (.claim id dest auth commitment)

theorem perform_ok {changes : List StateChange} (fits : NumbersFit op)
    (done : hook.perform sender op slot t = (.ok changes, t')) :
    (subject op = none ∧ hook.payout sender op slot t = none ∧ t'.hfiIntents = t.hfiIntents) ∨
      ∃ i, Stores slot t t' i ∧ Acts hook t sender slot i op := by
  cases op with
  | registerRecipient f =>
    obtain ⟨-, same⟩ := handleRegisterRecipient_ok done
    exact .inl ⟨rfl, rfl, same.intents.trans rfl⟩
  | create f =>
    obtain ⟨fresh, i, own, stores, ⟨status, unpaid⟩ | ⟨status, p, paid, source, amount⟩⟩ :=
      handleCreate_ok fits done
    · exact .inr ⟨i, stores, .escrow f fresh own status unpaid⟩
    · exact .inr ⟨i, stores, .autoClaim f p fresh own status paid source amount⟩
  | fund nonce id evidence deposit =>
    obtain ⟨old, loaded, created, stores⟩ := handleFund_ok done
    exact .inr ⟨_, stores, .fund nonce id evidence deposit old loaded created rfl rfl⟩
  | expire id =>
    obtain ⟨old, loaded, funded, late, stores⟩ := handleExpire_ok done
    exact .inr ⟨_, stores, .expire id old loaded funded late rfl rfl⟩
  | refund nonce id refundAuth =>
    obtain ⟨old, p, i, loaded, paid, eligible, source, dest, amount, own, status, stores⟩ := handleRefund_ok done
    exact .inr ⟨i, stores, .refund nonce id refundAuth old p loaded eligible paid source dest amount own status⟩
  | claim id dest auth commitment =>
    obtain ⟨old, p, i, loaded, paid, funded, early, source, amount, own, status, stores⟩ := handleClaim_ok done
    exact .inr ⟨i, stores, .claim id dest auth commitment old p loaded funded early paid source amount own status⟩

theorem Stores.load (stores : Stores slot t t' i) (now : slot < 2 ^ 64) (other : Hash) :
    loadIntent t' other = if other = i.intentId then .ok i else loadIntent t other := by
  unfold loadIntent hfiIntent
  rw [stores.stored, Lib.lookup_insert]
  by_cases same : other = i.intentId
  · rw [if_pos same, if_pos same]
    exact decode_encode (stores.sized now)
  · rw [if_neg same, if_neg same]

theorem Stores.statusOf (stores : Stores slot t t' i) (now : slot < 2 ^ 64) (other : Hash) :
    statusOf t' other = if other = i.intentId then some i.status else statusOf t other := by
  unfold Hfi.statusOf
  rw [stores.load now]
  by_cases same : other = i.intentId
  · rw [if_pos same, if_pos same]
  · rw [if_neg same, if_neg same]

variable {s : Clocked} {e : HfiEvent}

theorem wellStored_own (stored : WellStored s) (loaded : loadIntent s.tree id = .ok i) :
    i.intentId = id ∧ (i.status = .expired → i.expiry < s.clock) := by
  unfold loadIntent hfiIntent at loaded
  cases found : s.tree.hfiIntents[id]? with
  | none =>
    rw [found] at loaded
    cases loaded
  | some bytes =>
    obtain ⟨i', decoded, own, late⟩ := stored.intents id bytes found
    rw [found] at loaded
    have same : decode bytes = .ok i := loaded
    rw [decoded] at same
    cases same
    exact ⟨own, late⟩

theorem lifeStep_cases (hook : Hook) (stored : WellStored s) (ordered : InOrder s e) :
    ((∀ op, hook.performed s e = some op → subject op = none) ∧
        (∀ tx slot, e = .operation tx slot → KeepsBalances s.tree (hook.lifeStep s e).tree) ∧
        (hook.lifeStep s e).tree.hfiIntents = s.tree.hfiIntents) ∨
      ∃ tx slot op i, e = .operation tx slot ∧ slot < 2 ^ 64 ∧ operation tx = some op ∧
        hook.performed s e = some op ∧ subject op = some i.intentId ∧
        Effect s.tree (hook.lifeStep s e).tree (hook.payout tx.sender op slot s.tree) ∧
        Stores slot s.tree (hook.lifeStep s e).tree i ∧ Acts hook s.tree tx.sender slot i op := by
  cases e with
  | elsewhere next => exact .inl ⟨nofun, nofun, rfl⟩
  | operation tx slot =>
    unfold performed lifeStep land
    rcases hook.execute_cases s.tree tx slot with ⟨-, text, refused⟩ | ⟨op, decoded, executed⟩
    · dsimp only
      rw [refused]
      exact .inl ⟨nofun, fun _ _ _ => .refl _, rfl⟩
    · dsimp only
      rw [executed, decoded]
      cases done : hook.perform tx.sender op slot s.tree with
      | mk result after =>
        cases result with
        | error text => exact .inl ⟨nofun, fun _ _ _ => .refl _, rfl⟩
        | ok changes =>
          have effect := perform_effect tx.sender stored.keyed done
          rcases perform_ok (numbersFit_of_operation decoded) done with ⟨nobody, unpaid, same⟩ | ⟨i, stores, acts⟩
          · rw [unpaid] at effect
            refine .inl ⟨fun other same => ?_, fun _ _ _ => effect, same⟩
            cases same
            exact nobody
          · refine .inr ⟨tx, slot, op, i, rfl, ordered.2, decoded, rfl, ?_, effect, stores, acts⟩
            cases acts with
            | escrow f _ own _ _ => rw [own]; rfl
            | autoClaim f p _ own _ _ _ _ => rw [own]; rfl
            | fund nonce id evidence deposit old loaded _ own _ => rw [own, (wellStored_own stored loaded).1]; rfl
            | expire id old loaded _ _ own _ => rw [own, (wellStored_own stored loaded).1]; rfl
            | refund nonce id refundAuth old p loaded _ _ _ _ _ own _ => rw [own, (wellStored_own stored loaded).1]; rfl
            | claim id dest auth commitment old p loaded _ _ _ _ _ own _ => rw [own, (wellStored_own stored loaded).1]; rfl

theorem clock_le (hook : Hook) (ordered : InOrder s e) : s.clock ≤ (hook.lifeStep s e).clock := by
  cases e with
  | operation tx slot => exact ordered.1
  | elsewhere next => exact Nat.le_refl _

theorem lifeStep_keyed (stored : WellStored s) (ordered : InOrder s e) : Keyed (hook.lifeStep s e).tree := by
  cases e with
  | elsewhere next => exact Keyed.of_accounts ordered rfl
  | operation tx slot =>
    rcases lifeStep_cases hook stored ordered with ⟨-, same, -⟩ | ⟨_, _, _, _, -, -, -, -, -, effect, -, -⟩
    · exact (same tx slot rfl).keyed stored.keyed
    · exact effect.keyed stored.keyed

theorem lifeStep_wellStored (stored : WellStored s) (ordered : InOrder s e) : WellStored (hook.lifeStep s e) := by
  have later := clock_le hook ordered
  have kept : ∀ (id : Hash) (bytes : List UInt8), s.tree.hfiIntents[id]? = some bytes →
      ∃ i, decode bytes = .ok i ∧ i.intentId = id ∧
        (i.status = .expired → i.expiry < (hook.lifeStep s e).clock) := by
    intro id bytes found
    obtain ⟨i, decoded, own, late⟩ := stored.intents id bytes found
    exact ⟨i, decoded, own, fun expired => Nat.lt_of_lt_of_le (late expired) later⟩
  refine ⟨lifeStep_keyed stored ordered, fun id bytes found => ?_⟩
  rcases lifeStep_cases hook stored ordered with ⟨-, -, same⟩ | ⟨tx, slot, op, i, rfl, now, -, -, -, -, stores, acts⟩
  · exact kept id bytes (same ▸ found)
  rw [stores.stored, Std.TreeMap.getElem?_insert] at found
  by_cases same : i.intentId = id
  · rw [same, if_pos Std.ReflCmp.compare_self] at found
    cases found
    refine ⟨i, decode_encode (stores.sized now), same, fun expired => ?_⟩
    cases acts with
    | escrow f _ _ status _ => rw [status] at expired; cases expired
    | autoClaim f p _ _ status _ _ _ => rw [status] at expired; cases expired
    | fund nonce id evidence deposit old _ _ _ status => rw [status] at expired; cases expired
    | expire id old _ _ late _ _ => exact late
    | refund nonce id refundAuth old p _ _ _ _ _ _ _ status => rw [status] at expired; cases expired
    | claim id dest auth commitment old p _ _ _ _ _ _ _ status => rw [status] at expired; cases expired
  · rw [if_neg (fun equal => same (Std.LawfulEqCmp.eq_of_compare equal))] at found
    exact kept id bytes found

theorem statusOf_of_load (loaded : loadIntent t id = .ok i) : statusOf t id = some i.status := by
  unfold statusOf
  rw [loaded]

theorem statusOf_of_fresh (fresh : t.hfiIntent id = none) : statusOf t id = none := by
  unfold statusOf loadIntent
  rw [fresh]

theorem statusOf_congr (same : t'.hfiIntents = t.hfiIntents) (id : Hash) : statusOf t' id = statusOf t id := by
  unfold statusOf loadIntent hfiIntent
  rw [same]

theorem Acts.moves (acts : Acts hook s.tree sender slot i op) (stored : WellStored s) :
    Moves (statusOf s.tree i.intentId) (some i.status) := by
  cases acts with
  | escrow f fresh own status _ =>
    rw [own, status, statusOf_of_fresh fresh]
    exact .create
  | autoClaim f p fresh own status _ _ _ =>
    rw [own, status, statusOf_of_fresh fresh]
    exact .autoClaim
  | fund nonce id evidence deposit old loaded created own status =>
    rw [own, (wellStored_own stored loaded).1, status, statusOf_of_load loaded, created]
    exact .fund
  | expire id old loaded funded _ own status =>
    rw [own, (wellStored_own stored loaded).1, status, statusOf_of_load loaded, funded]
    exact .expire
  | refund nonce id refundAuth old p loaded eligible _ _ _ _ own status =>
    rw [own, (wellStored_own stored loaded).1, status, statusOf_of_load loaded]
    rcases eligible with expired | ⟨funded | created, -⟩
    · rw [expired]
      exact .refundExpired
    · rw [funded]
      exact .refundFunded
    · rw [created]
      exact .refundUnfunded
  | claim id dest auth commitment old p loaded funded _ _ _ _ own status =>
    rw [own, (wellStored_own stored loaded).1, status, statusOf_of_load loaded, funded]
    exact .claim

theorem lifeStep_moves (hook : Hook) (stored : WellStored s) (ordered : InOrder s e) (id : Hash) :
    Moves (statusOf s.tree id) (statusOf (hook.lifeStep s e).tree id) := by
  rcases lifeStep_cases hook stored ordered with ⟨-, -, same⟩ | ⟨tx, slot, op, i, -, now, -, -, -, -, stores, acts⟩
  · rw [statusOf_congr same]
    exact .stay _
  · rw [stores.statusOf now]
    by_cases own : id = i.intentId
    · rw [if_pos own, own]
      exact acts.moves stored
    · rw [if_neg own]
      exact .stay _

theorem lifeStep_lawful (stored : WellStored s) (ordered : InOrder s e) (id : Hash) : hook.Lawful id s e := by
  intro tx slot op event performed about
  rcases lifeStep_cases hook stored ordered with
    ⟨nobody, -, -⟩ | ⟨tx', slot', op', i, event', now, -, performed', about', effect, stores, acts⟩
  · rw [nobody op performed] at about
    cases about
  rw [event] at event'
  cases event'
  rw [performed] at performed'
  cases performed'
  rw [about] at about'
  cases about'
  have status := stores.statusOf now i.intentId
  rw [if_pos rfl] at status
  cases acts with
  | escrow f _ _ created unpaid =>
    rw [unpaid] at effect
    exact .inl ⟨effect, created ▸ status⟩
  | autoClaim f p _ _ claimed found source amount =>
    rw [found] at effect
    exact .inr ⟨p.destination, source ▸ amount ▸ effect, claimed ▸ status⟩
  | fund nonce id evidence deposit old _ _ _ _ => exact effect
  | expire id old _ _ _ _ _ => exact effect
  | refund nonce id refundAuth old p loaded eligible found source dest amount own _ =>
    obtain ⟨same, late⟩ := wellStored_own stored loaded
    rw [found] at effect
    rw [own, same]
    refine ⟨old, p.destination, loaded, ?_, dest, source ▸ amount ▸ effect⟩
    rcases eligible with expired | ⟨-, late'⟩
    · subst event
      exact Nat.lt_of_lt_of_le (late expired) ordered.1
    · exact late'
  | claim id dest auth commitment old p loaded funded early found source amount own _ =>
    rw [found] at effect
    rw [own, (wellStored_own stored loaded).1]
    exact ⟨old, p.destination, loaded, funded, early, source ▸ amount ▸ effect⟩

theorem creates_fresh (stored : WellStored s) (ordered : InOrder s e) (created : hook.creates id s e = true) :
    statusOf s.tree id = none ∧ statusOf (hook.lifeStep s e).tree id ≠ none := by
  rcases lifeStep_cases hook stored ordered with
    ⟨nobody, -, -⟩ | ⟨tx, slot, op, i, -, now, -, performed, about, -, stores, acts⟩
  · unfold creates at created
    cases performed : hook.performed s e with
    | none => rw [performed] at created; cases created
    | some op =>
      have none_ := nobody op performed
      rw [performed] at created
      cases op with
      | create f => cases none_
      | _ => cases created
  · unfold creates at created
    rw [performed] at created
    cases acts with
    | escrow f fresh own _ _ =>
      have same : f.intentId = id := of_decide_eq_true created
      rw [stores.statusOf now, own, if_pos same.symm, ← same, statusOf_of_fresh fresh]
      exact ⟨rfl, Option.some_ne_none _⟩
    | autoClaim f p fresh own _ _ _ _ =>
      have same : f.intentId = id := of_decide_eq_true created
      rw [stores.statusOf now, own, if_pos same.symm, ← same, statusOf_of_fresh fresh]
      exact ⟨rfl, Option.some_ne_none _⟩
    | _ => cases created

def Settled (t : StateTree) (id : Hash) : Prop := statusOf t id = some .claimed ∨ statusOf t id = some .refunded

theorem paysFor_settles (stored : WellStored s) (ordered : InOrder s e) (pays : hook.paysFor id s e = true) :
    ¬ Settled s.tree id ∧ Settled (hook.lifeStep s e).tree id := by
  unfold paysFor at pays
  rw [Bool.and_eq_true, balancesDiffer_iff] at pays
  obtain ⟨about, account, differ⟩ := pays
  rcases lifeStep_cases hook stored ordered with
    ⟨-, unpaid, -⟩ | ⟨tx, slot, op, i, rfl, now, decoded, -, subject, effect, stores, acts⟩
  · cases e with
    | elsewhere next => cases about
    | operation tx slot => exact absurd ((unpaid tx slot rfl).balanceOf account) differ
  unfold concerns at about
  dsimp only at about
  rw [decoded, Option.any_some, subject] at about
  have same : i.intentId = id := Option.some.inj (of_decide_eq_true about)
  subst same
  unfold Settled
  rw [stores.statusOf now, if_pos rfl]
  cases acts with
  | escrow f _ _ _ unpaid =>
    rw [unpaid] at effect
    exact absurd (effect.balanceOf account) differ
  | autoClaim f p fresh own status _ _ _ =>
    rw [own, statusOf_of_fresh fresh, status]
    exact ⟨by simp, .inl rfl⟩
  | fund nonce id evidence deposit old _ _ _ _ => exact absurd (effect.balanceOf account) differ
  | expire id old _ _ _ _ _ => exact absurd (effect.balanceOf account) differ
  | refund nonce id refundAuth old p loaded eligible _ _ _ _ own status =>
    rw [own, (wellStored_own stored loaded).1, statusOf_of_load loaded, status]
    refine ⟨?_, .inr rfl⟩
    rcases eligible with expired | ⟨funded | created, -⟩
    · simp [expired]
    · simp [funded]
    · simp [created]
  | claim id dest auth commitment old p loaded funded _ _ _ _ own status =>
    rw [own, (wellStored_own stored loaded).1, statusOf_of_load loaded, status, funded]
    exact ⟨by simp, .inl rfl⟩

variable {before after : Option IntentStatus}

theorem Moves.settled (moves : Moves before after)
    (settled : before = some .claimed ∨ before = some .refunded) : after = before := by
  cases moves with
  | stay => rfl
  | _ => simp at settled

theorem Moves.known (moves : Moves before after) (known : before ≠ none) :
    after ≠ none := by
  cases moves with
  | stay => exact known
  | create => exact absurd rfl known
  | autoClaim => exact absurd rfl known
  | _ => exact Option.some_ne_none _

theorem intent_lifecycle (hook : Hook) (s : Clocked) (stored : WellStored s) (events : List HfiEvent)
    (ordered : Meets hook.lifeStep InOrder s events) (id : Hash) :
    Meets hook.lifeStep (fun s e => Moves (statusOf s.tree id) (statusOf (hook.lifeStep s e).tree id)) s events ∧
      occurrences hook.lifeStep (hook.creates id) s events ≤ 1 ∧
      occurrences hook.lifeStep (hook.paysFor id) s events ≤ 1 ∧
      Meets hook.lifeStep (hook.Lawful id) s events := by
  have keep : ∀ s e, WellStored s → InOrder s e → WellStored (hook.lifeStep s e) :=
    fun s e stored ordered => lifeStep_wellStored stored ordered
  refine ⟨?_, ?_, ?_, ?_⟩
  · exact Meets.imp_of_invariant keep (fun s e stored ordered => lifeStep_moves hook stored ordered id) stored ordered
  · refine occurrences_le_one (D := fun s => statusOf s.tree id ≠ none) keep ?_ ?_ ?_ stored ordered
    · intro s e stored ordered created
      exact (creates_fresh stored ordered created).2
    · intro s e stored ordered known
      exact Moves.known (lifeStep_moves hook stored ordered id) known
    · intro s e stored ordered known
      apply Bool.eq_false_of_not_eq_true
      intro created
      exact known (creates_fresh stored ordered created).1
  · refine occurrences_le_one (D := fun s => Settled s.tree id) keep ?_ ?_ ?_ stored ordered
    · intro s e stored ordered pays
      exact (paysFor_settles stored ordered pays).2
    · intro s e stored ordered settled
      have same := Moves.settled (lifeStep_moves hook stored ordered id) settled
      unfold Settled
      rw [same]
      exact settled
    · intro s e stored ordered settled
      apply Bool.eq_false_of_not_eq_true
      intro pays
      exact (paysFor_settles stored ordered pays).1 settled
  · exact Meets.imp_of_invariant keep (fun s e stored ordered => lifeStep_lawful stored ordered id) stored ordered

end Hook

namespace SmallHfi

def deposit : AccountId := hook.deriveIntentAddress .native 88

def fundingHook : Hook where
  __ := hook
  committedTx := some (fun _ => some (txOf 2 (opTransfer :: leBytes 8 0 ++ hashBytes deposit.bytes ++ leBytes 8 30)))

def escrow : HfiCreate where
  nonce := 0
  intentId := 88
  blindedBinding := hook.sha (asciiBytes "hfipay:bind" ++ hashBytes 3 ++ hashBytes 88)
  amount := 30
  chainId := 0
  mint := 0
  depositAddress := deposit.bytes
  bindingEpoch := 0
  expirySlot := 20
  refundDest := 0
  refundAuthorizer := 0
  identityCommitment := 0

def funding : Transaction := txOf 2 (opHfiPayFund :: leBytes 8 0 ++ hashBytes 88 ++ hashBytes 1 ++ leBytes 8 30)

def claiming : Transaction :=
  txOf 1 (opHfiPayClaim :: hashBytes 88 ++ [32] ++ hashBytes (account 1).bytes ++ [0] ++ hashBytes 3)

def lifetime : List HfiEvent :=
  [.operation (creation 2 escrow) 5,
    .elsewhere (genesis.insert hook.derive { Account.new deposit with balance := 30 }),
    .operation funding 6, .operation claiming 8, .operation claiming 9]

end SmallHfi

open SmallHfi

namespace Hook

set_option maxRecDepth 8000 in
theorem intent_lifecycle_claimed :
    statusOf (run fundingHook.lifeStep ⟨genesis, 0⟩ lifetime).tree 88 = some .claimed ∧
      (run fundingHook.lifeStep ⟨genesis, 0⟩ lifetime).tree.balanceOf (account 1) = 130 ∧
      occurrences fundingHook.lifeStep (fundingHook.paysFor 88) ⟨genesis, 0⟩
        lifetime ≤ 1 := by
  refine ⟨by decide, by decide, ?_⟩
  apply (intent_lifecycle fundingHook ⟨genesis, 0⟩ ?_ lifetime ?_ 88).2.2.1
  · exact ⟨genesis_keyed, fun _ _ found => by cases found⟩
  · exact ⟨⟨by decide, by decide⟩, genesis_keyed.insert _ _, ⟨by decide, by decide⟩, ⟨by decide, by decide⟩,
      ⟨by decide, by decide⟩, trivial⟩

end Hook

end AceChain.Hfi
