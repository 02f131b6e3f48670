import AceChain.Hfi.Lifecycle

namespace AceChain.Hfi

open AceChain.Runtime State StateTree Engine Lib Handler

def IndexSound (t : StateTree) : Prop :=
  ∀ c h : Hash, t.hfiIdcomIndex[c]? = some h →
    ∃ bytes r, t.hfiRecipients[h]? = some bytes ∧ decodeRecipientRecord bytes = .ok r ∧ r.identityCommitment = c

def payee (t : StateTree) (c : Hash) : Option AccountId :=
  (t.hfiRecipientByIdcom c).bind (fun bytes => (decodeRecipientRecord bytes).toOption.map (·.accountId))

section

variable {t t' : StateTree} {c h : Hash} {bytes : List UInt8} {r : DecodedRecipient}

theorem IndexSound.congr (sound : IndexSound t) (same : SameTables t t') : IndexSound t' := by
  intro c h found
  rw [same.index] at found
  rw [same.recipients]
  exact sound c h found

theorem payee_congr (same : SameTables t t') (c : Hash) : payee t' c = payee t c := by
  unfold payee hfiRecipientByIdcom
  rw [same.index, same.recipients]

theorem payee_of_index (index : t.hfiIdcomIndex[c]? = some h) (stored : t.hfiRecipients[h]? = some bytes)
    (decoded : decodeRecipientRecord bytes = .ok r) : payee t c = some r.accountId := by
  unfold payee hfiRecipientByIdcom
  rw [index, Option.bind_some, stored, Option.bind_some, decoded]
  rfl

theorem payee_of_absent (absent : t.hfiIdcomIndex[c]? = none) : payee t c = none := by
  unfold payee hfiRecipientByIdcom
  rw [absent]
  rfl

theorem recordIdcom_of_decode (decoded : decodeRecipientRecord bytes = .ok r) :
    recordIdcom bytes = some r.identityCommitment := by
  unfold decodeRecipientRecord at decoded
  split at decoded
  · cases decoded
  cases decoded
  unfold recordIdcom hashAt slice
  rw [if_pos (by omega), List.drop_drop]

theorem index_put (t : StateTree) (h c : Hash) (bytes : List UInt8) (other : Hash) :
    (t.hfiRecipientPut h c bytes).hfiIdcomIndex[other]? =
      if other = c then some h
      else if (t.hfiRecipients[h]?.bind recordIdcom) = some other then none else t.hfiIdcomIndex[other]? := by
  unfold hfiRecipientPut
  rw [Lib.lookup_insert]
  by_cases same : other = c
  · rw [if_pos same, if_pos same]
  rw [if_neg same, if_neg same]
  cases previous : t.hfiRecipients[h]?.bind recordIdcom with
  | none => rfl
  | some old =>
    dsimp only
    by_cases stale : old = c
    · rw [if_neg (not_not_intro stale), if_neg]
      rintro ⟨⟩
      exact same stale
    · rw [if_pos stale, Lib.lookup_erase]
      by_cases hit : other = old
      · rw [if_pos hit, if_pos (congrArg some hit.symm)]
      · rw [if_neg hit, if_neg (fun equal => hit (Option.some.inj equal).symm)]

theorem recipients_put (t : StateTree) (h c : Hash) (bytes : List UInt8) (other : Hash) :
    (t.hfiRecipientPut h c bytes).hfiRecipients[other]? = if other = h then some bytes else t.hfiRecipients[other]? := by
  exact Lib.lookup_insert _ h other bytes

theorem IndexSound.put (sound : IndexSound t) (decoded : decodeRecipientRecord bytes = .ok r)
    (own : r.identityCommitment = c) : IndexSound (t.hfiRecipientPut h c bytes) := by
  intro other key found
  rw [index_put] at found
  rw [recipients_put]
  by_cases same : other = c
  · rw [if_pos same] at found
    cases found
    exact ⟨bytes, r, if_pos rfl, decoded, own.trans same.symm⟩
  · rw [if_neg same] at found
    split at found <;> rename_i stale
    · cases found
    obtain ⟨bytes', r', stored, decoded', own'⟩ := sound other key found
    -- an entry that named the overwritten record would have carried its commitment
    have elsewhere : key ≠ h := by
      rintro rfl
      rw [stored, Option.bind_some, recordIdcom_of_decode decoded', own'] at stale
      exact stale rfl
    exact ⟨bytes', r', (if_neg elsewhere).trans stored, decoded', own'⟩

theorem payee_put_self (decoded : decodeRecipientRecord bytes = .ok r) :
    payee (t.hfiRecipientPut h c bytes) c = some r.accountId :=
  payee_of_index ((index_put t h c bytes c).trans (if_pos rfl)) ((recipients_put t h c bytes h).trans (if_pos rfl)) decoded

theorem payee_put_other (sound : IndexSound t) {other : Hash} (differ : other ≠ c) :
    payee (t.hfiRecipientPut h c bytes) other = none ∨
      payee (t.hfiRecipientPut h c bytes) other = payee t other := by
  have entry := index_put t h c bytes other
  rw [if_neg differ] at entry
  by_cases stale : (t.hfiRecipients[h]?.bind recordIdcom) = some other
  · rw [if_pos stale] at entry
    exact .inl (payee_of_absent entry)
  rw [if_neg stale] at entry
  cases found : t.hfiIdcomIndex[other]? with
  | none => exact .inl (payee_of_absent (entry.trans found))
  | some key =>
    obtain ⟨bytes', r', stored, decoded', own'⟩ := sound other key found
    have elsewhere : key ≠ h := by
      rintro rfl
      rw [stored, Option.bind_some, recordIdcom_of_decode decoded', own'] at stale
      exact stale rfl
    right
    rw [payee_of_index found stored decoded']
    exact payee_of_index (entry.trans found) ((recipients_put t h c bytes key).trans
      ((if_neg elsewhere).trans stored)) decoded'

end

namespace Hook

variable (hook : Hook)

def registersForeign (c : Hash) (owner : AccountId) (s : Clocked) (e : HfiEvent) : Bool :=
  (hook.performed s e).any (fun op => match op with
    | .registerRecipient f => f.identityCommitment = c ∧ (⟨hook.idcomXid f.xid⟩ : AccountId) ≠ owner
    | _ => false)

def paid (s : Clocked) : HfiEvent → Option Payment
  | .operation tx slot =>
    if (hook.execute s.tree tx slot).1.isOk then (operation tx).bind (fun op => hook.payout tx.sender op slot s.tree)
    else none
  | .elsewhere _ => none

def AutoClaimPays (c : Hash) (owner : AccountId) (s : Clocked) (e : HfiEvent) : Prop :=
  ∀ f p, hook.performed s e = some (.create f) → f.identityCommitment = c → hook.paid s e = some p →
    p.destination = owner ∧ Pays s.tree (hook.lifeStep s e).tree p

variable {hook} {s : Clocked} {e : HfiEvent} {c : Hash} {owner : AccountId}

theorem recipientOf_decode {f : HfiRegistration} (small : f.bindingEpoch < 2 ^ 64) :
    decodeRecipientRecord (encodeRecipientRecord (hook.recipientOf f) f.pubkey f.signature) = .ok (hook.recipientOf f) :=
  decode_encodeRecipientRecord small _ _

theorem lifeStep_registry (hook : Hook) (s : Clocked) (e : HfiEvent) :
    ((∀ f, hook.performed s e ≠ some (.registerRecipient f)) ∧
        (hook.lifeStep s e).tree.hfiRecipients = s.tree.hfiRecipients ∧
        (hook.lifeStep s e).tree.hfiIdcomIndex = s.tree.hfiIdcomIndex) ∨
      ∃ f, hook.performed s e = some (.registerRecipient f) ∧ f.bindingEpoch < 2 ^ 64 ∧
        SameTables (s.tree.hfiRecipientPut (hook.onchainIdHash f.identifier) f.identityCommitment
          (encodeRecipientRecord (hook.recipientOf f) f.pubkey f.signature)) (hook.lifeStep s e).tree := by
  cases e with
  | elsewhere next => exact .inl ⟨fun _ => (by intro none_; cases none_), rfl, rfl⟩
  | operation tx slot =>
    unfold performed lifeStep land
    rcases hook.execute_cases s.tree tx slot with ⟨-, text, refused⟩ | ⟨op, decoded, executed⟩
    · dsimp only
      rw [refused]
      exact .inl ⟨fun _ => (by intro none_; cases none_), rfl, rfl⟩
    · dsimp only
      rw [executed, decoded]
      have fits := numbersFit_of_operation decoded
      cases done : hook.perform tx.sender op slot s.tree with
      | mk result after =>
        cases result with
        | error text => exact .inl ⟨fun _ => (by intro none_; cases none_), rfl, rfl⟩
        | ok changes =>
          cases op with
          | registerRecipient f => exact .inr ⟨f, rfl, fits, (handleRegisterRecipient_ok done).2⟩
          | _ =>
            refine .inl ⟨fun _ => (by intro wrong; cases wrong), ?_⟩
            rcases perform_ok fits done with ⟨wrong, -⟩ | ⟨i, stores, -⟩
            · cases wrong
            · exact ⟨stores.recipients, stores.index⟩

theorem lifeStep_indexSound (sound : IndexSound s.tree) : IndexSound (hook.lifeStep s e).tree := by
  rcases lifeStep_registry hook s e with ⟨-, recipients, index⟩ | ⟨f, -, small, same⟩
  · intro c h found
    rw [index] at found
    rw [recipients]
    exact sound c h found
  · exact (sound.put (recipientOf_decode small) rfl).congr same

theorem lifeStep_payee_register {f : HfiRegistration}
    (registered : hook.performed s e = some (.registerRecipient f)) :
    payee (hook.lifeStep s e).tree f.identityCommitment = some ⟨hook.idcomXid f.xid⟩ := by
  rcases lifeStep_registry hook s e with ⟨nobody, -, -⟩ | ⟨f', performed, small, same⟩
  · exact absurd registered (nobody f)
  · rw [registered] at performed
    cases performed
    rw [payee_congr same]
    exact payee_put_self (recipientOf_decode small)

theorem lifeStep_payee_iff (sound : IndexSound s.tree) (held : ∀ a, payee s.tree c = some a → a = owner) :
    (∀ a, payee (hook.lifeStep s e).tree c = some a → a = owner) ↔ hook.registersForeign c owner s e = false := by
  unfold registersForeign
  rcases lifeStep_registry hook s e with ⟨nobody, recipients, index⟩ | ⟨f, performed, small, same⟩
  · have kept : payee (hook.lifeStep s e).tree c = payee s.tree c := by
      unfold payee hfiRecipientByIdcom
      rw [recipients, index]
    rw [kept]
    refine ⟨fun _ => ?_, fun _ => held⟩
    cases performed : hook.performed s e with
    | none => rfl
    | some op =>
      cases op with
      | registerRecipient f => exact absurd performed (nobody f)
      | _ => rfl
  · rw [performed, Option.any_some, payee_congr same]
    by_cases own : f.identityCommitment = c
    · rw [own, payee_put_self (recipientOf_decode small)]
      simp [own, recipientOf]
    have kept : ∀ a, payee (s.tree.hfiRecipientPut (hook.onchainIdHash f.identifier) f.identityCommitment
        (encodeRecipientRecord (hook.recipientOf f) f.pubkey f.signature)) c = some a → a = owner := by
      intro a found
      rcases payee_put_other sound (Ne.symm own) with gone | same
      · rw [gone] at found
        cases found
      · exact held a (same ▸ found)
    exact ⟨fun _ => by simp [own], fun _ => kept⟩

theorem payee_of_payout {sender : AccountId} {f : HfiCreate} {slot : Nat} {p : Payment} {t : StateTree}
    (paid : hook.payout sender (.create f) slot t = some p) : payee t f.identityCommitment = some p.destination := by
  unfold payout at paid
  dsimp only at paid
  cases checked : createChecks f slot t with
  | mk result after =>
    rw [checked] at paid
    cases result with
    | error text => cases paid
    | ok found =>
      obtain ⟨chain, record⟩ := found
      obtain ⟨-, rfl, looked⟩ := createChecks_ok checked
      cases record with
      | none => cases paid
      | some record =>
        dsimp only at paid
        cases plan : autoClaimPlan sender f record t with
        | mk result after =>
          rw [plan] at paid
          cases result with
          | error text => cases paid
          | ok planned =>
            obtain ⟨record_ok, -, payment, -⟩ := autoClaimPlan_ok plan
            cases paid
            split at looked <;> rename_i zero
            · cases looked
            unfold payee
            rw [← looked, Option.bind_some, record_ok, payment]
            rfl

theorem autoClaim_pays_payee {f : HfiCreate} {p : Payment} (created : hook.performed s e = some (.create f))
    (paid : hook.paid s e = some p) :
    payee s.tree f.identityCommitment = some p.destination ∧ Pays s.tree (hook.lifeStep s e).tree p := by
  cases e with
  | elsewhere next => cases created
  | operation tx slot =>
    unfold performed at created
    unfold Hook.paid at paid
    unfold lifeStep land
    dsimp only at created paid ⊢
    rcases hook.execute_cases s.tree tx slot with ⟨-, text, refused⟩ | ⟨op, decoded, executed⟩
    · rw [refused] at created
      cases created
    rw [executed] at created paid ⊢
    cases done : hook.perform tx.sender op slot s.tree with
    | mk result after =>
      rw [done, decoded] at created paid
      cases result with
      | error text => cases created
      | ok changes =>
        cases created
        have planned : hook.payout tx.sender (.create f) slot s.tree = some p := paid
        have effect := handleCreate_effect tx.sender done
        rw [planned] at effect
        exact ⟨payee_of_payout planned, effect⟩

theorem registration_kept_iff (hook : Hook) (s : Clocked) (sound : IndexSound s.tree) (first : HfiEvent)
    (f : HfiRegistration) (registered : hook.performed s first = some (.registerRecipient f)) (later : List HfiEvent) :
    let c := f.identityCommitment
    let owner : AccountId := ⟨hook.idcomXid f.xid⟩
    let start := hook.lifeStep s first
    payee start.tree c = some owner ∧
      (Meets hook.lifeStep (fun s e => ∀ a, payee (hook.lifeStep s e).tree c = some a → a = owner) start later ↔
        Meets hook.lifeStep (fun s e => hook.registersForeign c owner s e = false) start later) ∧
      (Meets hook.lifeStep (fun s e => hook.registersForeign c owner s e = false) start later →
        Meets hook.lifeStep (hook.AutoClaimPays c owner) start later) ∧
      Meets hook.lifeStep (fun s e => IndexSound (hook.lifeStep s e).tree) s (first :: later) := by
  intro c owner start
  have begun : IndexSound start.tree ∧ ∀ a, payee start.tree c = some a → a = owner := by
    refine ⟨lifeStep_indexSound sound, fun a found => ?_⟩
    rw [lifeStep_payee_register registered] at found
    exact (Option.some.inj found).symm
  have keep : ∀ s e, (IndexSound s.tree ∧ ∀ a, payee s.tree c = some a → a = owner) →
      hook.registersForeign c owner s e = false →
      IndexSound (hook.lifeStep s e).tree ∧ ∀ a, payee (hook.lifeStep s e).tree c = some a → a = owner :=
    fun s e inv met => ⟨lifeStep_indexSound inv.1, (lifeStep_payee_iff inv.1 inv.2).mpr met⟩
  refine ⟨lifeStep_payee_register registered, ?_, ?_, ?_⟩
  · exact meets_congr_of_invariant (I := fun s => IndexSound s.tree ∧ ∀ a, payee s.tree c = some a → a = owner)
      (fun s e inv met => ⟨lifeStep_indexSound inv.1, met⟩) (fun s e inv => lifeStep_payee_iff inv.1 inv.2) begun
  · apply Meets.imp_of_invariant keep ?_ begun
    intro s e inv _ g p created own paid
    obtain ⟨holder, pays⟩ := autoClaim_pays_payee created paid
    exact ⟨inv.2 _ (own ▸ holder), pays⟩
  · exact Meets.imp_of_invariant (fun s e sound _ => lifeStep_indexSound sound)
      (fun s e sound _ => lifeStep_indexSound sound) sound (meets_true _)

end Hook

namespace SmallHfi

def keyOf (n : UInt8) : TaggedPubkey := .ed25519 (List.replicate 32 n)

def wire (algorithm : SignatureAlgorithm) (bytes : List UInt8) : List UInt8 :=
  algorithm.tag :: leBytes 2 bytes.length ++ bytes

def registration (n : UInt8) (identifier : List UInt8) : Transaction :=
  let pubkey := wire .ed25519 (keyOf n).bytes
  let signature := wire .ed25519 (List.replicate 64 n)
  txOf n.toNat (opHfiPayRegisterRecipient :: leBytes 8 0 ++ hashBytes (BitVec.ofNat 256 n.toNat) ++
    leBytes 2 identifier.length ++ identifier ++ hashBytes 9 ++ hashBytes 0 ++ leBytes 8 0 ++ [0] ++ leBytes 8 100 ++
    leBytes 2 pubkey.length ++ pubkey ++ leBytes 2 signature.length ++ signature)

def unregistered : StateTree :=
  ((StateTree.new.insert hook.derive { Account.new (account 1) with authPubkey := keyOf 1 }).insert hook.derive
    { Account.new (account 2) with authPubkey := keyOf 2 }).insert hook.derive { Account.new (account 3) with balance := 100 }

end SmallHfi

open SmallHfi

namespace Hook

set_option maxRecDepth 8000 in
theorem registration_kept_iff_small :
    let first := HfiEvent.operation (registration 1 [97]) 5
    let later := [HfiEvent.operation (creation 3 toOne) 6]
    (run hook.lifeStep ⟨unregistered, 0⟩ (first :: later)).tree.balanceOf (account 1) = 100 ∧
      Meets hook.lifeStep (hook.AutoClaimPays 9 (account 1))
        (hook.lifeStep ⟨unregistered, 0⟩ first) later := by
  intro first later
  refine ⟨by decide, ?_⟩
  obtain ⟨f, performed, own, holder⟩ : ∃ f, hook.performed ⟨unregistered, 0⟩ first =
      some (.registerRecipient f) ∧ f.identityCommitment = 9 ∧ hook.idcomXid f.xid = 1 :=
    ⟨_, rfl, by decide, by decide⟩
  have kept := registration_kept_iff hook ⟨unregistered, 0⟩ (fun _ _ found => by cases found) first f
    performed later
  rw [own, holder] at kept
  exact kept.2.2.1 (by decide)

set_option maxRecDepth 8000 in
/-- Identity `1` registers the commitment, identity `2` registers it for itself under another identifier, and the next
auto-claimed intent for the commitment pays account `2`. -/
theorem registration_hijacked :
    let events := [HfiEvent.operation (registration 1 [97]) 5, .operation (registration 2 [98]) 6,
      .operation (creation 3 toOne) 7]
    payee (run hook.lifeStep ⟨unregistered, 0⟩ (events.take 1)).tree 9 = some (account 1) ∧
      (run hook.lifeStep ⟨unregistered, 0⟩ events).tree.balanceOf (account 1) = 0 ∧
      (run hook.lifeStep ⟨unregistered, 0⟩ events).tree.balanceOf (account 2) = 100 := by
  decide

end Hook

end AceChain.Hfi
