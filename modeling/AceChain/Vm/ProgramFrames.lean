import AceChain.Engine.Frames
import AceChain.Vm.Programs

namespace AceChain.Vm

open AceChain.Runtime Engine State Lib Handler StateTree

section

variable {ε α β : Type} {p : AccountId} {t t' t'' : StateTree}

structure SameLedger (p : AccountId) (t t' : StateTree) : Prop where
  left : t.contains p = true
  right : t'.contains p = true
  storage : t.contractStorage = t'.contractStorage

structure LedgerOnly (p : AccountId) (t t' : StateTree) : Prop where
  accounts : t'.accounts = t.accounts
  storage : ∀ id, id ≠ p → t'.contractStorage[id]? = t.contractStorage[id]?

theorem LedgerOnly.refl (p : AccountId) (t : StateTree) : LedgerOnly p t t := ⟨rfl, fun _ _ => rfl⟩

theorem LedgerOnly.trans (first : LedgerOnly p t t') (second : LedgerOnly p t' t'') : LedgerOnly p t t'' where
  accounts := second.accounts.trans first.accounts
  storage id differ := (second.storage id differ).trans (first.storage id differ)

theorem LedgerOnly.frame (only : LedgerOnly p t t') : Frame [p] t t' where
  get id _ := by rw [StateTree.get, only.accounts, StateTree.get]
  storage id outside := only.storage id (fun same => outside (same ▸ List.mem_singleton_self p))

/-- Code that, once the account `p` is there, reads storage only and writes that of `p` only. -/
def OnLedger (p : AccountId) (x : Handler StateTree ε α) : Prop :=
  ∀ t t', SameLedger p t t' → (x t).1 = (x t').1 ∧ SameLedger p (x t).2 (x t').2 ∧ LedgerOnly p t (x t).2

def ReadsStorage (f : StateTree → β) : Prop := ∀ t t', t.contractStorage = t'.contractStorage → f t = f t'

namespace OnLedger

variable {x : Handler StateTree ε α}

theorem bind {f : α → Handler StateTree ε β} (first : OnLedger p x)
    (second : ∀ a, OnLedger p (f a)) : OnLedger p (x >>= f) := by
  intro t t' same
  have done := first t t' same
  change (andThen x f t).1 = (andThen x f t').1 ∧ SameLedger p (andThen x f t).2 (andThen x f t').2 ∧
    LedgerOnly p t (andThen x f t).2
  unfold andThen
  cases ran : x t with
  | mk result mid =>
    cases ran' : x t' with
    | mk result' mid' =>
      rw [ran, ran'] at done
      obtain ⟨results, mids, only⟩ := done
      subst results
      cases result with
      | error e => exact ⟨rfl, mids, only⟩
      | ok a =>
        obtain ⟨finals, states, rest⟩ := second a mid mid' mids
        exact ⟨finals, states, only.trans rest⟩

theorem of_still (still : ∀ t, (x t).2 = t) (reads : ReadsStorage (fun t => (x t).1)) :
    OnLedger p x := by
  intro t t' same
  rw [still t, still t']
  exact ⟨reads t t' same.storage, same, .refl p t⟩

theorem pure (a : α) : OnLedger p (pure a : Handler StateTree ε α) := of_still (fun _ => rfl) (fun _ _ _ => rfl)

theorem require (c : Prop) [Decidable c] (e : ε) : OnLedger p (require c e) :=
  of_still (fun _ => rfl) (fun _ _ _ => rfl)

theorem read {f : StateTree → α} (reads : ReadsStorage f) : OnLedger p (read f : Handler StateTree ε α) := by
  apply of_still (fun _ => rfl)
  intro t t' same
  exact congrArg Except.ok (reads t t' same)

theorem demand {f : StateTree → Option α} (reads : ReadsStorage f) (e : ε) : OnLedger p (demand f e) := by
  apply of_still
  · intro t
    unfold Handler.demand
    cases f t <;> rfl
  · intro t t' same
    unfold Handler.demand
    dsimp only
    rw [reads t t' same]
    cases f t' <;> rfl

theorem ensure {derive : Derivations} :
    OnLedger p (write (fun t => ensureAccount derive t p) : Handler StateTree ε Unit) := by
  intro t t' same
  have here : ensureAccount derive t p = t := if_pos same.left
  have there : ensureAccount derive t' p = t' := if_pos same.right
  change _ ∧ SameLedger p (ensureAccount derive t p) (ensureAccount derive t' p) ∧ LedgerOnly p t (ensureAccount derive t p)
  rw [here, there]
  exact ⟨rfl, same, .refl p t⟩

theorem ite {c : Prop} [Decidable c] {x y : Handler StateTree ε α} (first : OnLedger p x) (second : OnLedger p y) :
    OnLedger p (if c then x else y) := by
  by_cases holds : c
  · rw [if_pos holds]
    exact first
  · rw [if_neg holds]
    exact second

end OnLedger

theorem foldl_setStorage_ledger (writes : List (Hash × Hash)) {t t' : StateTree} (same : SameLedger p t t') :
    SameLedger p (writes.foldl (fun t entry => t.setStorage p entry.1 entry.2) t)
        (writes.foldl (fun t entry => t.setStorage p entry.1 entry.2) t') ∧
      LedgerOnly p t (writes.foldl (fun t entry => t.setStorage p entry.1 entry.2) t) := by
  induction writes generalizing t t' with
  | nil => exact ⟨same, .refl p t⟩
  | cons entry writes ih =>
    have next : SameLedger p (t.setStorage p entry.1 entry.2) (t'.setStorage p entry.1 entry.2) := by
      refine ⟨same.left, same.right, ?_⟩
      unfold setStorage
      rw [same.storage]
    have only : LedgerOnly p t (t.setStorage p entry.1 entry.2) := by
      refine ⟨rfl, fun id differ => ?_⟩
      rw [storage_setStorage, if_neg differ]
    obtain ⟨states, rest⟩ := ih next
    exact ⟨states, only.trans rest⟩

end

namespace TokenSlots

variable (slots : TokenSlots) (derive : Derivations)

theorem getMintMeta_reads (mint : Hash) : ReadsStorage (fun t => slots.getMintMeta t mint) := by
  intro t t' same
  unfold getMintMeta
  simp only [word_of_storage same]

theorem Ledgered.onLedger {slots : TokenSlots} {derive : Derivations} {touches : Hash → Prop}
    {f : StateTree → Outcome String (List StateChange)} (ledgered : slots.Ledgered derive touches f) :
    OnLedger slots.program f := by
  intro t t' same
  obtain ⟨result, writes, makes, -, done⟩ := ledgered (slots.word t')
  have here : ensureAccount derive t slots.program = t := if_pos same.left
  have there : ensureAccount derive t' slots.program = t' := if_pos same.right
  rw [done t (funext (word_of_storage same.storage)), done t' rfl, here, there, ite_self, ite_self]
  exact ⟨rfl, foldl_setStorage_ledger writes same⟩

end TokenSlots

namespace Programs

variable (p : Programs)

theorem stop_onLedger (text : String) : OnLedger p.tokens.program (stop text : ProgramM (List StateChange)) :=
  .of_still (fun _ => rfl) (fun _ _ _ => rfl)

theorem getTokenAccountMeta_reads (tokenAccount : Hash) : ReadsStorage (p.getTokenAccountMeta tokenAccount) := by
  intro t t' same
  unfold getTokenAccountMeta
  simp only [TokenSlots.word_of_storage same]

theorem fillSlots_onLedger (writes : List (Hash × Hash)) : OnLedger p.tokens.program (p.fillSlots writes) := by
  intro t t' same
  exact ⟨rfl, foldl_setStorage_ledger writes same⟩

variable (tokenAccount mint ownerSolPubkey ownerIdcom : Hash)

theorem registerTokenAccount_onLedger :
    OnLedger p.tokens.program (p.registerTokenAccount tokenAccount mint ownerSolPubkey ownerIdcom) := by
  refine .bind .ensure (fun _ => .bind (.demand (p.tokens.getMintMeta_reads mint) _) (fun _ =>
    .bind (.read ?_) (fun _ => .bind (.require _ _) (fun _ => p.fillSlots_onLedger _))))
  intro t t' same
  simp only [List.map_cons, List.map_nil, TokenSlots.word_of_storage same]

theorem ensureRegisteredTokenAccount_onLedger :
    OnLedger p.tokens.program (p.ensureRegisteredTokenAccount tokenAccount mint ownerSolPubkey ownerIdcom) := by
  refine .bind (.read (p.getTokenAccountMeta_reads tokenAccount)) (fun existing => ?_)
  by_cases fresh : existing.isNone = true
  · rw [if_pos fresh]
    exact p.registerTokenAccount_onLedger _ _ _ _
  · rw [if_neg fresh]
    exact .bind (.require _ _) (fun _ => .pure _)

theorem moveOwned_onLedger (mint : Hash) (source destination : TokenAccountMeta) (data : List UInt8) :
    OnLedger p.tokens.program (p.moveOwned mint source destination data) :=
  (p.tokens.transferBetweenOwners_ledgered p.derive _ _ _ _).onLedger

theorem checkDecimals_onLedger (mint : Hash) (data : List UInt8) : OnLedger p.tokens.program (p.checkDecimals mint data) :=
  .bind (.demand (p.tokens.getMintMeta_reads mint) _) (fun _ => .require _ _)

theorem destinationWithAta_onLedger (tokenAccount mint ownerSolPubkey : Hash) :
    OnLedger p.tokens.program (p.destinationWithAta tokenAccount mint ownerSolPubkey) := by
  refine .bind (.read (p.getTokenAccountMeta_reads tokenAccount)) (fun existing => ?_)
  by_cases there : existing.isSome = true
  · rw [if_pos there]
    exact .bind (.demand (fun _ _ _ => rfl) _) (fun _ => .pure _)
  · rw [if_neg there]
    exact .bind (.require _ _) (fun _ => .bind (p.ensureRegisteredTokenAccount_onLedger _ _ _ _) (fun _ =>
      .bind (.demand (p.getTokenAccountMeta_reads tokenAccount) _) (fun _ => .pure _)))

theorem tokenInstruction_onLedger (instruction : UInt8) (caller : AccountId) (accounts : List Hash) (data : List UInt8) :
    OnLedger p.tokens.program (p.tokenInstruction instruction caller accounts data) := by
  have account := fun tokenAccount : Hash => p.getTokenAccountMeta_reads tokenAccount
  refine .ite ?createMint (.ite ?mintToOwner (.ite ?transfer (.ite ?approve (.ite ?transferFrom (.ite ?register
    (.ite ?splTransfer (.ite ?splChecked (.ite ?splAta (.ite ?splCheckedAta (.ite ?ensure (p.stop_onLedger _)))))))))))
  case createMint => exact .bind (.require _ _) (fun _ => (p.tokens.createMint_ledgered p.derive _ _ _ _).onLedger)
  case mintToOwner => exact .bind (.require _ _) (fun _ => (p.tokens.mintToOwner_ledgered p.derive _ _ _ _).onLedger)
  case transfer => exact .bind (.require _ _) (fun _ => (p.tokens.transferBetweenOwners_ledgered p.derive _ _ _ _).onLedger)
  case approve => exact .bind (.require _ _) (fun _ => (p.tokens.setAllowance_ledgered p.derive _ _ _ _).onLedger)
  case transferFrom => exact .bind (.require _ _) (fun _ => (p.tokens.transferFrom_ledgered p.derive _ _ _ _ _).onLedger)
  case register => exact .bind (.require _ _) (fun _ => p.registerTokenAccount_onLedger _ _ _ _)
  case splTransfer =>
    exact .bind (.require _ _) (fun _ => .bind (.demand (account _) _) (fun _ => .bind (.demand (account _) _) (fun _ =>
      .bind (.require _ _) (fun _ => .bind (.require _ _) (fun _ => p.moveOwned_onLedger _ _ _ _)))))
  case splChecked =>
    exact .bind (.require _ _) (fun _ => .bind (.demand (account _) _) (fun _ => .bind (.demand (account _) _) (fun _ =>
      .bind (.require _ _) (fun _ => .bind (.require _ _) (fun _ => .bind (p.checkDecimals_onLedger _ _) (fun _ =>
        p.moveOwned_onLedger _ _ _ _))))))
  case splAta =>
    exact .bind (.require _ _) (fun _ => .bind (.demand (account _) _) (fun _ => .bind (.require _ _) (fun _ =>
      .bind (p.destinationWithAta_onLedger _ _ _) (fun _ => .bind (p.moveOwned_onLedger _ _ _ _) (fun _ => .pure _)))))
  case splCheckedAta =>
    exact .bind (.require _ _) (fun _ => .bind (.demand (account _) _) (fun _ => .bind (.require _ _) (fun _ =>
      .bind (.require _ _) (fun _ => .bind (p.checkDecimals_onLedger _ _) (fun _ =>
        .bind (p.destinationWithAta_onLedger _ _ _) (fun _ => .bind (p.moveOwned_onLedger _ _ _ _) (fun _ => .pure _)))))))
  case ensure => exact .bind (.require _ _) (fun _ => p.ensureRegisteredTokenAccount_onLedger _ _ _ _)

/-- The accounts a program may write beside its caller's, by what the payload invokes. -/
def invokeTargets (payload : List UInt8) : List AccountId :=
  if invokedProgram payload = systemProgramId then (invokedAccounts payload).head?.toList.map AccountId.mk
  else if invokedProgram payload = tokenProgramId then [p.tokens.program]
  else []

variable {p} {caller : AccountId} {accounts : List Hash} {data payload : List UInt8} {t t' : StateTree}
  {changes : List StateChange}

theorem tokenProgram_ok (done : p.tokenProgram caller accounts data t = (.ok changes, t')) :
    ∃ instruction instructed, data.head? = some instruction ∧
      p.tokenInstruction instruction caller accounts data (ensureAccount p.derive t p.tokens.program) =
        (.ok instructed, t') := by
  obtain ⟨instruction, _, looked, done⟩ := ok_bind.mp done
  obtain ⟨given, rfl⟩ := ok_demand.mp looked
  obtain ⟨created, mid, ensured, done⟩ := ok_bind.mp done
  obtain ⟨known, _, looked, ensured⟩ := ok_bind.mp ensured
  obtain ⟨rfl, rfl⟩ := ok_read.mp looked
  obtain ⟨_, _, written, ensured⟩ := ok_bind.mp ensured
  obtain rfl := ok_write.mp written
  obtain ⟨-, rfl⟩ := ok_pure.mp ensured
  obtain ⟨instructed, _, ran, done⟩ := ok_bind.mp done
  obtain ⟨-, rfl⟩ := ok_pure.mp done
  exact ⟨instruction, instructed, given, ran⟩

theorem tokenProgram_of {instruction : UInt8} {instructed : List StateChange} (given : data.head? = some instruction)
    (ran : p.tokenInstruction instruction caller accounts data (ensureAccount p.derive t p.tokens.program) =
      (.ok instructed, t')) : ∃ changes, p.tokenProgram caller accounts data t = (.ok changes, t') := by
  unfold tokenProgram ensureTokenProgramAccount
  rw [run_demand (g := fun _ => data.head?) instruction given]
  refine ⟨_, ok_bind.mpr ⟨_, _, rfl, ok_bind.mpr ⟨instructed, t', ran, rfl⟩⟩⟩

theorem tokenProgram_frame (done : p.tokenProgram caller accounts data t = (.ok changes, t')) :
    Frame [p.tokens.program] t t' := by
  obtain ⟨instruction, instructed, -, ran⟩ := tokenProgram_ok done
  have here := contains_ensureAccount p.derive t p.tokens.program
  have only := (p.tokenInstruction_onLedger instruction caller accounts data _ _ ⟨here, here, rfl⟩).2.2
  rw [ran] at only
  exact (frame_ensureAccount (List.mem_singleton_self _)).trans only.frame

theorem tokenProgram_creates (done : p.tokenProgram caller accounts data t = (.ok changes, t')) {start : StateTree}
    (same : start.contractStorage = t.contractStorage) :
    ∃ changes final, p.tokenProgram caller accounts data start = (.ok changes, final) ∧
      final.contains p.tokens.program = true := by
  obtain ⟨instruction, instructed, given, ran⟩ := tokenProgram_ok done
  have alike : SameLedger p.tokens.program (ensureAccount p.derive start p.tokens.program)
      (ensureAccount p.derive t p.tokens.program) :=
    ⟨contains_ensureAccount _ _ _, contains_ensureAccount _ _ _, by rw [storage_ensureAccount, storage_ensureAccount, same]⟩
  obtain ⟨results, states, -⟩ := p.tokenInstruction_onLedger instruction caller accounts data _ _ alike
  rw [ran] at results
  have again : p.tokenInstruction instruction caller accounts data (ensureAccount p.derive start p.tokens.program) =
      (.ok instructed, (p.tokenInstruction instruction caller accounts data
        (ensureAccount p.derive start p.tokens.program)).2) := Prod.ext results rfl
  obtain ⟨changes, goes⟩ := tokenProgram_of given again
  exact ⟨changes, _, goes, states.left⟩

theorem systemProgram_ok (done : p.systemProgram caller accounts data t = (.ok changes, t')) :
    ∃ target, accounts.head? = some target ∧
      ((data.head? = some 0x00 ∧ 9 ≤ data.length ∧
          transfer p.derive t caller ⟨target⟩ (u64At data 1) none = (.ok changes, t')) ∨
        (data.head? = some 0x01 ∧ t.contains ⟨target⟩ = false ∧ t' = t.insert p.derive (Account.new ⟨target⟩))) := by
  obtain ⟨instruction, _, looked, done⟩ := ok_bind.mp done
  obtain ⟨given, rfl⟩ := ok_demand.mp looked
  by_cases moves : instruction = 0x00
  · rw [if_pos moves] at done
    obtain ⟨target, _, looked, done⟩ := ok_bind.mp done
    obtain ⟨first, rfl⟩ := ok_demand.mp looked
    obtain ⟨_, _, checked, done⟩ := ok_bind.mp done
    obtain ⟨long, rfl⟩ := ok_require.mp checked
    exact ⟨target, first, .inl ⟨moves ▸ given, long, ok_adapt.mp done⟩⟩
  · rw [if_neg moves] at done
    by_cases creates : instruction = 0x01
    · rw [if_pos creates] at done
      obtain ⟨target, _, looked, done⟩ := ok_bind.mp done
      obtain ⟨first, rfl⟩ := ok_demand.mp looked
      obtain ⟨known, _, looked, done⟩ := ok_bind.mp done
      obtain ⟨rfl, rfl⟩ := ok_read.mp looked
      obtain ⟨_, _, checked, done⟩ := ok_bind.mp done
      obtain ⟨absent, rfl⟩ := ok_require.mp checked
      obtain ⟨_, _, written, done⟩ := ok_bind.mp done
      obtain rfl := ok_write.mp written
      obtain ⟨-, rfl⟩ := ok_pure.mp done
      exact ⟨target, first, .inr ⟨creates ▸ given, absent, rfl⟩⟩
    · rw [if_neg creates] at done
      cases done

theorem systemProgram_frame (done : p.systemProgram caller accounts data t = (.ok changes, t')) :
    Frame (caller :: accounts.head?.toList.map AccountId.mk) t t' := by
  obtain ⟨target, first, moved | created⟩ := systemProgram_ok done
  · rw [first]
    have first : caller ∈ [caller, ⟨target⟩] := by simp
    have second : (⟨target⟩ : AccountId) ∈ [caller, ⟨target⟩] := by simp
    have frame := (transferWithNoncePolicy_performs p.derive t (u64At data 1) none true first second).writes.frame
    unfold transfer at moved
    rw [moved.2.2] at frame
    exact frame
  · rw [first, created.2.2]
    exact frame_insert (by simp [Account.new])

theorem systemProgram_creates {target : Hash} (done : p.systemProgram caller accounts data t = (.ok changes, t'))
    (first : accounts.head? = some target) (differ : caller ≠ ⟨target⟩) :
    ∃ changes final, p.systemProgram caller accounts data (t.without ⟨target⟩) = (.ok changes, final) ∧
      final.contains ⟨target⟩ = true := by
  have absent : (t.without ⟨target⟩).get ⟨target⟩ = none := by rw [get_without, if_pos rfl]
  obtain ⟨_, same, moved | created⟩ := systemProgram_ok done
  · cases first.symm.trans same
    obtain ⟨given, long, moved⟩ := moved
    obtain ⟨account, hot, found, covered, countable, open_⟩ := payable_of_transfer differ moved
    have still : (t.without ⟨target⟩).get caller = some account := by rw [get_without, if_neg differ, found]
    have payable : Payable (t.without ⟨target⟩) caller ⟨target⟩ (u64At data 1) account :=
      ⟨hot, still, covered, countable, open_⟩
    obtain ⟨changes, final, goes, there⟩ := transfer_creates p.derive differ payable absent (u64At_le data 1)
    refine ⟨changes, final, ?_, there⟩
    unfold systemProgram systemTransfer
    rw [run_demand (g := fun _ => data.head?) _ given, if_pos rfl, run_demand (g := fun _ => accounts.head?) _ first,
      run_require long]
    exact ok_adapt.mpr goes
  · cases first.symm.trans same
    obtain ⟨given, -, -⟩ := created
    have missing : (t.without ⟨target⟩).contains ⟨target⟩ = false := by
      unfold contains
      rw [absent]
      rfl
    refine ⟨[.accountCreated ⟨target⟩], (t.without ⟨target⟩).insert p.derive (Account.new ⟨target⟩), ?_, ?_⟩
    · unfold systemProgram systemCreateAccount
      rw [run_demand (g := fun _ => data.head?) _ given, if_neg (by decide), if_pos rfl,
        run_demand (g := fun _ => accounts.head?) _ first, run_read, run_require missing, run_write]
      rfl
    · rw [contains_insert, decide_eq_true (by rfl)]
      rfl

theorem invoke_ok (done : p.invoke caller payload t = (.ok changes, t')) :
    34 ≤ payload.length ∧ 34 + 32 * accountCount payload ≤ payload.length ∧
      ((invokedProgram payload = systemProgramId ∧ p.systemProgram caller (invokedAccounts payload)
          (payload.drop (34 + 32 * accountCount payload)) t = (.ok changes, t')) ∨
        (invokedProgram payload ≠ systemProgramId ∧ invokedProgram payload = tokenProgramId ∧
          p.tokenProgram caller (invokedAccounts payload) (payload.drop (34 + 32 * accountCount payload)) t =
            (.ok changes, t'))) := by
  obtain ⟨_, _, checked, done⟩ := ok_bind.mp done
  obtain ⟨long, rfl⟩ := ok_require.mp checked
  obtain ⟨_, _, checked, done⟩ := ok_bind.mp done
  obtain ⟨whole, rfl⟩ := ok_require.mp checked
  refine ⟨long, whole, ?_⟩
  by_cases system : invokedProgram payload = systemProgramId
  · rw [if_pos system] at done
    exact .inl ⟨system, done⟩
  · rw [if_neg system] at done
    by_cases token : invokedProgram payload = tokenProgramId
    · rw [if_pos token] at done
      exact .inr ⟨system, token, done⟩
    · rw [if_neg token] at done
      cases done

theorem invoke_frame (done : p.invoke caller payload t = (.ok changes, t')) :
    Frame (caller :: p.invokeTargets payload) t t' := by
  obtain ⟨-, -, ⟨system, ran⟩ | ⟨other, token, ran⟩⟩ := invoke_ok done
  · unfold invokeTargets
    rw [if_pos system]
    exact systemProgram_frame ran
  · unfold invokeTargets
    rw [if_neg other, if_pos token]
    exact (tokenProgram_frame ran).mono (List.subset_cons_self _ _)

theorem invoke_creates {target : AccountId} (done : p.invoke caller payload t = (.ok changes, t'))
    (member : target ∈ p.invokeTargets payload) (differ : target ≠ caller) :
    ∃ changes final, p.invoke caller payload (t.without target) = (.ok changes, final) ∧ final.contains target = true := by
  obtain ⟨long, whole, ⟨system, ran⟩ | ⟨other, token, ran⟩⟩ := invoke_ok done
  · rw [invokeTargets, if_pos system, List.mem_map] at member
    obtain ⟨bytes, listed, rfl⟩ := member
    have first : (invokedAccounts payload).head? = some bytes := Option.mem_toList.mp listed
    obtain ⟨changes, final, goes, there⟩ := systemProgram_creates ran first differ.symm
    refine ⟨changes, final, ?_, there⟩
    unfold invoke
    rw [run_require long, run_require whole, if_pos system]
    exact goes
  · rw [invokeTargets, if_neg other, if_pos token, List.mem_singleton] at member
    subst member
    have same : (t.without p.tokens.program).contractStorage = t.contractStorage := rfl
    obtain ⟨changes, final, goes, there⟩ := tokenProgram_creates ran same
    refine ⟨changes, final, ?_, there⟩
    unfold invoke
    rw [run_require long, run_require whole, if_neg other, if_pos token]
    exact goes

end Programs

end AceChain.Vm
