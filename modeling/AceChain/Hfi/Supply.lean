import AceChain.Hfi.Handlers

namespace AceChain.Hfi

open AceChain.Runtime State StateTree Engine Lib Handler

instance : IsPreorder StateTree KeepsBalances where
  refl := .refl
  trans _ _ _ := .trans

theorem Keeps.of_ok {R : StateTree → StateTree → Prop} {α : Type} {x : HfiM α} {t t' : StateTree} {a : α}
    (kept : Keeps R x) (done : x t = (.ok a, t')) : R t t' := by
  have held := kept t
  rw [done] at held
  exact held

theorem storeIntent_keeps (intent : OnChainIntent) : Keeps KeepsBalances (write (storeIntent intent) : HfiM Unit) :=
  fun _ => .of_accounts rfl

theorem consumeNonce_keeps (sender : AccountId) (nonce : Nat) : Keeps KeepsBalances (consumeNonce sender nonce) := by
  refine .bind (.demand _ _) fun account => .bind (.require _ _) fun _ => .bind (.demand _ _) fun next =>
    .bind ?_ fun _ => .pure _
  intro t
  exact KeepsBalances.modify (fun _ => rfl) (fun _ => rfl)

namespace Hook

variable {hook : Hook} {t t' : StateTree} {p : Payment}

def gain (t : StateTree) (p : Payment) : Nat :=
  if p.source = p.destination ∧ p.amount ≤ t.balanceOf p.source ∧ t.balanceOf p.source + p.amount ≤ u64Max then p.amount
  else 0

theorem gain_congr (kept : KeepsBalances t t') (p : Payment) : gain t' p = gain t p := by
  unfold gain
  rw [kept.balanceOf]

theorem supply_transfer {source destination : AccountId} {amount : Nat} (known : t.contains source = true)
    (known' : t.contains destination = true) (enough : amount ≤ t.balanceOf source) :
    ((t.modify source (fun a => { a with balance := t.balanceOf source - amount })).modify destination
        (fun a => { a with balance := t.balanceOf destination + amount })).supply =
      t.supply + if source = destination then amount else 0 := by
  have debited := supply_setBalance known (t.balanceOf source - amount)
  have credited := supply_setBalance (t := t.modify source (fun a => { a with balance := t.balanceOf source - amount }))
    ((contains_modify _ _).trans known') (t.balanceOf destination + amount)
  by_cases same : source = destination
  · subst same
    rw [balanceOf_setBalance known] at credited
    rw [if_pos rfl]
    omega
  · rw [balanceOf_modify_ne (Ne.symm same)] at credited
    rw [if_neg same]
    omega

/-- A payment to its own source only credits it. -/
structure Pays (t t' : StateTree) (p : Payment) : Prop where
  keyed : Keyed t → Keyed t'
  funded : p.amount ≤ t.balanceOf p.source
  credited : t'.balanceOf p.destination = t.balanceOf p.destination + p.amount
  debited : p.source ≠ p.destination → t'.balanceOf p.source = t.balanceOf p.source - p.amount
  others : ∀ id, id ≠ p.source → id ≠ p.destination → t'.balanceOf id = t.balanceOf id

theorem Pays.between {before after : StateTree} (pays : Pays t t' p) (first : KeepsBalances before t)
    (last : KeepsBalances t' after) : Pays before after p where
  keyed keyed := last.keyed (pays.keyed (first.keyed keyed))
  funded := first.balanceOf p.source ▸ pays.funded
  credited := by rw [last.balanceOf, pays.credited, first.balanceOf]
  debited differ := by rw [last.balanceOf, pays.debited differ, first.balanceOf]
  others id source destination := by rw [last.balanceOf, pays.others id source destination, first.balanceOf]

theorem nativeTransfer_pays {moved : Moved} (done : hook.nativeTransfer p t = (.ok moved, t')) : Pays t t' p := by
  have ensured := ensureAccount_keeps hook.derive t p.destination
  have known := contains_ensureAccount hook.derive t p.destination
  unfold nativeTransfer at done
  simp only [ok_bind, ok_write, ok_read, ok_require, ok_demand, ok_pure] at done
  generalize ensureAccount hook.derive t p.destination = ready at ensured known done
  obtain ⟨_, _, rfl, _, _, ⟨rfl, rfl⟩, _, _, ⟨enough, rfl⟩, _, _, ⟨rfl, rfl⟩, sum, _, ⟨summed, rfl⟩, account, _, ⟨held, rfl⟩,
    _, _, rfl, _, _, ⟨-, rfl⟩, _, _, rfl, -, rfl⟩ := done
  have source : ready.contains p.source = true := by
    unfold StateTree.contains
    rw [held]
    rfl
  cases u64CheckedAdd_eq summed
  suffices pays : Pays ready _ p from pays.between ensured (.refl _)
  refine ⟨fun keyed => ?_, enough, ?_, fun differ => ?_, fun id away away' => ?_⟩
  · refine Keyed.modify (Keyed.modify keyed ?_) ?_
    · exact fun _ => rfl
    · exact fun _ => rfl
  · exact balanceOf_setBalance ((contains_modify _ _).trans known) _
  · rw [balanceOf_modify_ne differ, balanceOf_setBalance source]
  · rw [balanceOf_modify_ne away', balanceOf_modify_ne away]

theorem nativeTransfer_supply (hook : Hook) (t : StateTree) (p : Payment) :
    (hook.nativeTransfer p t).2.supply = t.supply + gain t p := by
  have ensured := ensureAccount_keeps hook.derive t p.destination
  rw [← ensured.supply, ← gain_congr ensured p]
  have known := contains_ensureAccount hook.derive t p.destination
  unfold nativeTransfer
  rw [run_write, run_read]
  generalize ensureAccount hook.derive t p.destination = ready at known ⊢
  unfold gain
  by_cases enough : p.amount ≤ ready.balanceOf p.source
  · rw [run_require enough, run_read]
    cases sum : u64CheckedAdd (ready.balanceOf p.destination) p.amount with
    | none =>
      have exceeds : ¬ ready.balanceOf p.destination + p.amount ≤ u64Max := by
        unfold u64CheckedAdd at sum
        intro fits
        rw [if_pos fits] at sum
        cases sum
      rw [run_demand_none, if_neg]
      · rfl
      · rintro ⟨same, -, fits⟩
        rw [same] at fits
        exact exceeds fits
      · rfl
    | some after =>
      have total := u64CheckedAdd_eq sum
      subst total
      rw [run_demand (ready.balanceOf p.destination + p.amount)]
      on_goal 2 => rfl
      cases held : ready.get p.source with
      | none =>
        -- only an amount of zero gets here
        have empty : ready.balanceOf p.source = 0 := by rw [balanceOf_eq, held]; rfl
        have zero : p.amount = 0 := by omega
        rw [run_demand_none, zero, ite_self]
        · rfl
        · exact held
      | some account =>
        have source : ready.contains p.source = true := by unfold StateTree.contains; rw [held]; rfl
        have debited : (ready.modify p.source (fun a => { a with balance := ready.balanceOf p.source - p.amount })).contains
            p.destination = true := (contains_modify _ _).trans known
        obtain ⟨receiver, found⟩ := Option.isSome_iff_exists.mp debited
        rw [run_demand account, run_write, run_demand receiver, run_write]
        on_goal 3 => exact held
        on_goal 2 => exact found
        have moved := supply_transfer source known enough
        have fits : ready.balanceOf p.destination + p.amount ≤ u64Max := Nat.le_of_lt_succ (u64CheckedAdd_lt sum)
        refine moved.trans ?_
        by_cases same : p.source = p.destination
        · rw [if_pos same, if_pos ⟨same, enough, same ▸ fits⟩]
        · rw [if_neg same, if_neg (fun holds => same holds.1)]
  · rw [run_require_not enough, if_neg (fun holds => enough holds.2.1)]
    rfl

variable (sender : AccountId) (f : HfiCreate)

theorem autoClaimPlan_keeps (record : List UInt8) :
    Keeps KeepsBalances (autoClaimPlan sender f record) :=
  .bind (.fetch _) fun _ => .bind (.require _ _) fun _ => .bind (.require _ _) fun _ =>
    .bind (consumeNonce_keeps _ _) fun _ => .pure _

theorem createEscrow_keeps (chain : ChainId) (slot : Nat) :
    Keeps KeepsBalances (hook.createEscrow sender f chain slot) :=
  .bind (.require _ _) fun _ => .bind (.require _ _) fun _ => .bind (consumeNonce_keeps _ _) fun _ =>
    .bind (ensureAccount_keeps hook.derive · _) fun _ => .bind (storeIntent_keeps _) fun _ => .pure _

theorem handleFund_keeps (nonce : Nat) (intentId evidence : Hash) (amount : Nat) :
    Keeps KeepsBalances (hook.handleFund sender nonce intentId evidence amount) :=
  .bind (.fetch _) fun _ => .bind (.require _ _) fun _ => .bind (.require _ _) fun _ => .bind (.require _ _) fun _ =>
    .bind (.fetch _) fun _ => .bind (.read _) fun _ => .bind (.require _ _) fun _ =>
      .bind (consumeNonce_keeps _ _) fun _ => .bind (storeIntent_keeps _) fun _ => .pure _

variable (intentId : Hash)

theorem handleExpire_keeps (slot : Nat) : Keeps KeepsBalances (handleExpire intentId slot) :=
  .bind (.fetch _) fun _ => .bind (.require _ _) fun _ => .bind (.require _ _) fun _ =>
    .bind (storeIntent_keeps _) fun _ => .pure _

theorem refundPlan_keeps (nonce : Nat) (intentId : Hash)
    (refundAuth : Option (List UInt8 × List UInt8)) (slot : Nat) :
    Keeps KeepsBalances (hook.refundPlan sender nonce intentId refundAuth slot) := by
  refine .bind (.fetch _) fun _ => .bind (.require _ _) fun _ => .bind (.demand _ _) fun _ => .bind (.demand _ _) fun _ =>
    .bind ?_ fun _ => .pure _
  cases refundAuth with
  | some auth => exact .bind (.fetch _) fun _ => .pure _
  | none => exact .bind (.require _ _) fun _ => .bind (consumeNonce_keeps _ _) fun _ => .pure _

/-- A claim may write the account of its destination back: the balance stays where accounts are under their own ids. -/
def KeepsValue (t t' : StateTree) : Prop := Keyed t → KeepsBalances t t'

instance : IsPreorder StateTree KeepsValue where
  refl t _ := .refl t
  trans _ _ _ first second keyed :=
    KeepsBalances.trans (first keyed) (second ((first keyed).keyed keyed))

theorem materialise_keepsValue (id : AccountId) (auth : Option TaggedPubkey) :
    Keeps KeepsValue (write (hook.materialise id auth) : HfiM Unit) := by
  intro t keyed
  change KeepsBalances t (hook.materialise id auth t)
  unfold materialise
  split
  · rename_i key _
    -- the account that is written back has the id and the balance it had
    have stored : ∀ a : Account, a.idCom = id → a.balance = t.balanceOf id →
        KeepsBalances t (t.insert hook.derive a) := by
      intro a own balance
      have total := supply_insert (t := t) (a := a) hook.derive
      refine ⟨fun keyed => keyed.insert hook.derive a, by rw [own] at total; omega, fun other => ?_⟩
      rw [balanceOf_eq, get_insert, own]
      by_cases same : other = id
      · rw [if_pos same, same]
        exact balance
      · rw [if_neg same]
        rfl
    have base : ((t.get id).getD { Account.new id with authPubkey := key }).idCom = id ∧
        ((t.get id).getD { Account.new id with authPubkey := key }).balance = t.balanceOf id := by
      rw [balanceOf_eq]
      cases held : t.get id with
      | none => exact ⟨rfl, rfl⟩
      | some a => exact ⟨keyed id a held, rfl⟩
    dsimp only
    split
    · exact stored _ base.1 base.2
    · exact stored _ base.1 base.2
  · exact ensureAccount_keeps hook.derive t id

theorem claimPlan_keepsValue (dest : List UInt8) (auth : Option TaggedPubkey)
    (authCommitment : Hash) (slot : Nat) :
    Keeps KeepsValue (hook.claimPlan sender intentId dest auth authCommitment slot) := by
  refine .bind (.require _ _) fun _ => .bind (.fetch _) fun _ => .bind (.require _ _) fun _ => .bind (.require _ _) fun _ =>
    .bind (.require _ _) fun _ => .bind (.fetch _) fun address => .bind ?_ fun _ => .pure _
  cases address with
  | native id => exact .bind (materialise_keepsValue id auth) fun _ => .pure _
  | evm address => exact .bind (fun t _ => ensureAccount_keeps hook.derive t _) fun _ => .pure _
  | svm id => exact .bind (fun t _ => ensureAccount_keeps hook.derive t _) fun _ => .pure _
  | bvm id => exact .fetch _
  | tvm address => exact .fetch _

theorem handleRegisterRecipient_keeps (f : HfiRegistration) (slot : Nat) :
    Keeps KeepsBalances (hook.handleRegisterRecipient sender f slot) := by
  refine .bind (.fetch _) fun _ => .bind ?_ fun _ => .bind (consumeNonce_keeps _ _) fun _ => .pure _
  exact fun _ => .of_accounts rfl

theorem finishAutoClaim_keeps (chain : ChainId) (slot : Nat)
    (plan : Payment × DecodedRecipient × StateChange) (moved : Moved) :
    Keeps KeepsBalances (hook.finishAutoClaim f chain slot plan moved) :=
  .bind (storeIntent_keeps _) fun _ => .pure _

theorem finishRefund_keeps (plan : Payment × OnChainIntent × List StateChange) (moved : Moved) :
    Keeps KeepsBalances (finishRefund intentId plan moved) :=
  .bind (.demand _ _) fun _ => .bind (.demand _ _) fun _ => .bind (storeIntent_keeps _) fun _ => .pure _

theorem finishClaim_keeps (plan : Payment × OnChainIntent) (moved : Moved) :
    Keeps KeepsBalances (hook.finishClaim intentId plan moved) :=
  .bind (.demand _ _) fun _ => .bind (.demand _ _) fun _ => .bind (storeIntent_keeps _) fun _ =>
    .bind (.demand _ _) fun _ => .pure _

def paymentOf {α : Type} : Except String (Payment × α) × StateTree → Option Payment
  | (.ok plan, _) => some plan.1
  | (.error _, _) => none

def gained (t : StateTree) (payment : Option Payment) : Nat := (payment.map (gain t)).getD 0

/-- What an operation that goes through does to the balances, given what it set out to pay. -/
def Effect (t t' : StateTree) : Option Payment → Prop
  | some p => Pays t t' p
  | none => KeepsBalances t t'

theorem Effect.keyed {payment : Option Payment} (effect : Effect t t' payment) (keyed : Keyed t) : Keyed t' := by
  cases payment with
  | some p => exact Pays.keyed effect keyed
  | none => exact KeepsBalances.keyed effect keyed

section

variable {α β : Type} {plan : HfiM (Payment × α)} {finish : Payment × α → Moved → HfiM β}

theorem supply_pay (kept : KeepsBalances t (plan t).2) (finished : ∀ a moved, Keeps KeepsBalances (finish a moved)) :
    ((plan >>= fun a => hook.nativeTransfer a.1 >>= finish a) t).2.supply = t.supply + gained t (paymentOf (plan t)) := by
  cases done : plan t with
  | mk result ready =>
    rw [done] at kept
    cases result with
    | error text =>
      rw [run_bind_error done]
      exact kept.supply
    | ok a =>
      rw [run_bind done]
      have paid := nativeTransfer_supply hook ready a.1
      rw [kept.supply, gain_congr kept] at paid
      cases moved : hook.nativeTransfer a.1 ready with
      | mk result after =>
        rw [moved] at paid
        cases result with
        | error text =>
          rw [run_bind_error moved]
          exact paid
        | ok balances =>
          rw [run_bind moved]
          exact (finished a balances after).supply.trans paid

theorem pay_effect {b : β} (kept : KeepsBalances t (plan t).2)
    (finished : ∀ a moved, Keeps KeepsBalances (finish a moved))
    (done : (plan >>= fun a => hook.nativeTransfer a.1 >>= finish a) t = (.ok b, t')) :
    Effect t t' (paymentOf (plan t)) := by
  simp only [ok_bind] at done
  obtain ⟨a, ready, planned, moved, after, transferred, last⟩ := done
  rw [planned] at kept ⊢
  exact (nativeTransfer_pays transferred).between kept (Keeps.of_ok (finished a moved) last)

end

variable (hook)

def payout (op : HfiOp) (slot : Nat) (t : StateTree) : Option Payment :=
  match op with
  | .claim intentId dest auth authCommitment =>
    paymentOf (hook.claimPlan sender intentId dest auth authCommitment slot t)
  | .refund nonce intentId refundAuth => paymentOf (hook.refundPlan sender nonce intentId refundAuth slot t)
  | .create f =>
    match createChecks f slot t with
    | (.ok (_, some record), t) => paymentOf (autoClaimPlan sender f record t)
    | _ => none
  | _ => none

variable {hook}

theorem createChecks_state (slot : Nat) (t : StateTree) : (createChecks f slot t).2 = t := by
  have kept : Keeps (fun t t' : StateTree => t' = t) (createChecks f slot) :=
    .bind (.require _ _) fun _ => .bind (.require _ _) fun _ => .bind (.read _) fun _ => .bind (.require _ _) fun _ =>
      .bind (.demand _ _) fun _ => .bind (.read _) fun _ => .pure _
  exact kept t

theorem handleCreate_supply (sender : AccountId) (f : HfiCreate) (slot : Nat) :
    (hook.handleCreate sender f slot t).2.supply = t.supply + gained t (hook.payout sender (.create f) slot t) := by
  have unchanged := createChecks_state f slot t
  unfold handleCreate payout
  dsimp only
  cases checked : createChecks f slot t with
  | mk result after =>
    rw [checked] at unchanged
    subst unchanged
    cases result with
    | error text =>
      rw [run_bind_error checked]
      rfl
    | ok found =>
      rw [run_bind checked]
      obtain ⟨chain, record⟩ := found
      cases record with
      | some record =>
        exact supply_pay (autoClaimPlan_keeps sender f record after) (finishAutoClaim_keeps f chain slot)
      | none => exact (createEscrow_keeps sender f chain slot after).supply

theorem perform_supply (keyed : Keyed t) (sender : AccountId) (op : HfiOp) (slot : Nat) :
    (hook.perform sender op slot t).2.supply = t.supply + gained t (hook.payout sender op slot t) := by
  cases op with
  | claim intentId dest auth authCommitment =>
    exact supply_pay (claimPlan_keepsValue sender intentId dest auth authCommitment slot t keyed) (finishClaim_keeps intentId)
  | create f => exact handleCreate_supply sender f slot
  | fund nonce intentId evidence amount => exact (handleFund_keeps sender nonce intentId evidence amount t).supply
  | expire intentId => exact (handleExpire_keeps intentId slot t).supply
  | refund nonce intentId refundAuth =>
    exact supply_pay (refundPlan_keeps sender nonce intentId refundAuth slot t) (finishRefund_keeps intentId)
  | registerRecipient f => exact (handleRegisterRecipient_keeps sender f slot t).supply

variable {changes : List StateChange}

theorem handleCreate_effect {f : HfiCreate} {slot : Nat} (done : hook.handleCreate sender f slot t = (.ok changes, t')) :
    Effect t t' (hook.payout sender (.create f) slot t) := by
  have unchanged := createChecks_state f slot t
  unfold handleCreate at done
  unfold payout
  dsimp only
  obtain ⟨⟨chain, record⟩, ready, checked, rest⟩ := ok_bind.mp done
  rw [checked] at unchanged ⊢
  subst unchanged
  cases record with
  | some record =>
    exact pay_effect (autoClaimPlan_keeps sender f record ready) (finishAutoClaim_keeps f chain slot) rest
  | none => exact Keeps.of_ok (createEscrow_keeps sender f chain slot) rest

theorem perform_effect {op : HfiOp} {slot : Nat} (keyed : Keyed t)
    (done : hook.perform sender op slot t = (.ok changes, t')) : Effect t t' (hook.payout sender op slot t) := by
  cases op with
  | claim intentId dest auth authCommitment =>
    exact pay_effect (claimPlan_keepsValue sender intentId dest auth authCommitment slot t keyed)
      (finishClaim_keeps intentId) done
  | create f => exact handleCreate_effect sender done
  | fund nonce intentId evidence amount =>
    exact Keeps.of_ok (handleFund_keeps sender nonce intentId evidence amount) done
  | expire intentId => exact Keeps.of_ok (handleExpire_keeps intentId slot) done
  | refund nonce intentId refundAuth =>
    exact pay_effect (refundPlan_keeps sender nonce intentId refundAuth slot t) (finishRefund_keeps intentId) done
  | registerRecipient f => exact Keeps.of_ok (handleRegisterRecipient_keeps sender f slot) done

variable (hook)

def paysItself (t : StateTree) (tx : Transaction) (slot : Nat) : Bool :=
  ((operation tx).bind (fun op => hook.payout tx.sender op slot t)).any (fun p =>
    p.source = p.destination ∧ p.amount ≠ 0 ∧ p.amount ≤ t.balanceOf p.source ∧
      t.balanceOf p.source + p.amount ≤ u64Max)

variable {hook}

theorem gained_ne_zero_iff (payment : Option Payment) :
    gained t payment ≠ 0 ↔ payment.any (fun p => p.source = p.destination ∧ p.amount ≠ 0 ∧
      p.amount ≤ t.balanceOf p.source ∧ t.balanceOf p.source + p.amount ≤ u64Max) = true := by
  cases payment with
  | none => simp [gained]
  | some p =>
    simp only [gained, gain, Option.map_some, Option.getD_some, Option.any_some, decide_eq_true_eq]
    split
    · rename_i holds
      exact ⟨fun positive => ⟨holds.1, positive, holds.2.1, holds.2.2⟩, fun all => all.2.1⟩
    · rename_i fails
      simp only [ne_eq, not_true_eq_false, false_iff]
      rintro ⟨same, -, enough, fits⟩
      exact fails ⟨same, enough, fits⟩

theorem execute_supply_iff (hook : Hook) (keyed : Keyed t) (tx : Transaction) (slot : Nat) :
    (hook.execute t tx slot).2.supply = t.supply ↔ hook.paysItself t tx slot = false := by
  rw [Bool.eq_false_iff]
  unfold paysItself
  rcases execute_cases hook t tx slot with ⟨none_, text, refused⟩ | ⟨op, found, done⟩
  · rw [none_, refused]
    simp
  · rw [found, done, perform_supply keyed, Option.bind_some, ne_eq, ← gained_ne_zero_iff]
    omega

theorem hfi_supply_iff (hook : Hook) (t : StateTree) (keyed : Keyed t) (tx : Transaction) (slot : Nat) :
    ((hook.execute t tx slot).2.supply = t.supply ↔ hook.paysItself t tx slot = false) ∧
      ((hook.land t tx slot).supply = t.supply ↔
        ¬ (hook.paysItself t tx slot = true ∧ (hook.execute t tx slot).1.isOk = true)) := by
  have raw := execute_supply_iff hook keyed tx slot
  refine ⟨raw, ?_⟩
  unfold land
  cases done : hook.execute t tx slot with
  | mk result after =>
    rw [done] at raw
    cases result with
    | error text => simp [Except.isOk, Except.toBool]
    | ok changes =>
      rw [raw]
      simp [Except.isOk, Except.toBool]

set_option maxRecDepth 8000 in
theorem hfi_supply_iff_other :
    let tx := SmallHfi.creation 2 { SmallHfi.toOne with nonce := 0, amount := 40 }
    ((SmallHfi.hook.land SmallHfi.genesis tx 5).balanceOf (SmallHfi.account 1) = 140) ∧
      (SmallHfi.hook.land SmallHfi.genesis tx 5).supply = SmallHfi.genesis.supply :=
  ⟨by decide, (hfi_supply_iff SmallHfi.hook SmallHfi.genesis SmallHfi.genesis_keyed _ 5).2.mpr (by decide)⟩

set_option maxRecDepth 8000 in
/-- The registered recipient sends an auto-claimed intent to themselves and doubles their balance. -/
theorem auto_claim_to_self_creates_value :
    let tx := SmallHfi.creation 1 SmallHfi.toOne
    (SmallHfi.hook.execute SmallHfi.genesis tx 5).1.isOk = true ∧ SmallHfi.genesis.supply = 200 ∧
      (SmallHfi.hook.land SmallHfi.genesis tx 5).supply = 300 := by
  decide

end Hook

end AceChain.Hfi
