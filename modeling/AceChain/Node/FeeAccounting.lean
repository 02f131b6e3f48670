import AceChain.Engine.BlockExecution
import AceChain.Node.Inbound
import AceChain.Vm.Batches

namespace AceChain.Node

open AceChain.Runtime Consensus Engine Governance State Vm Scheduler Engine.SmallChain StateTree Lib SmallChain List

/-- The turn of a transaction: the block's state before and after it, whether it was counted as charged, and what its
handler was given and left behind if it succeeded. -/
structure Turn where
  payer : AccountId
  before : StateTree
  after : StateTree
  counted : Bool
  work : Option (StateTree × StateTree)

namespace Turn

variable (t : Turn)

def Funded : Prop := t.before.contains t.payer = true

instance : Decidable t.Funded := inferInstanceAs (Decidable (_ = true))

/-- What the payer has lost after the turn, but for what the handler took from it or gave to it. -/
def debit : Int :=
  (t.before.balanceOf t.payer : Int) - t.after.balanceOf t.payer -
    match t.work with
    | none => 0
    | some (given, left) => (given.balanceOf t.payer : Int) - left.balanceOf t.payer

end Turn

namespace Machine

variable (m : Machine)

def handleInBatch (charged : StateTree) (tx : Transaction) (blockSlot : Nat) : Except String (StateTree × VmReceipt) :=
  if hasOpcode opLiquid tx then m.executeLiquid charged tx else m.executeTransaction charged tx blockSlot

def workOf {ε α : Type} (given : StateTree) (result : Except ε (StateTree × α)) : Option (StateTree × StateTree) :=
  result.toOption.map (fun done => (given, done.1))

def singleWork (hashOf : BlockHeader → Hash) (store : BlockStore) (activeSet : ValidatorSet) (blockSlot : Nat)
    (sigPreVerified : Bool) (p : Progress) (tx : Transaction) : Option (StateTree × StateTree) :=
  if hasOpcode opBridgeDeposit tx then workOf p.state (m.executeBridgeDeposit p.state tx)
  else if hasOpcode opWithdrawalCompleted tx then workOf p.state (m.executeWithdrawalCompletion p.state tx)
  else if hasOpcode opMevAceOmissionEvidence tx then
    workOf p.state (m.executeOmissionEvidence hashOf store activeSet p.state p.governance tx)
  else
    match m.chargeTxFee p.state tx sigPreVerified with
    | .error _ => none
    | .ok (charged, _) =>
      if hasOpcode opCrossVmSettle tx then none else workOf charged (m.handle charged tx blockSlot)

def parallelWork (blockSlot : Nat) (sigPreVerified : Bool) (start : StateTree) (tx : Transaction) :
    Option (StateTree × StateTree) :=
  match m.chargeTxFee start tx sigPreVerified with
  | .error _ => none
  | .ok (charged, _) => workOf charged (m.handleInBatch charged tx blockSlot)

/-- What a turn can do: nothing, what a handler without a fee phase does, or what a fee phase in the state at the `start` and a
handler do, through a write set that has the payer. -/
inductive Turned (start : StateTree) (ws : WriteSet) (tx : Transaction) (p p' : Progress) :
    Option (StateTree × StateTree) → Prop
  | refused (count : p'.chargedTxCount = p.chargedTxCount) (state : p'.state = p.state) : Turned start ws tx p p' none
  | free (single : ws = .global) (count : p'.chargedTxCount = p.chargedTxCount) (keyed : p.state.Keyed → p'.state.Keyed) :
    Turned start ws tx p p' (some (p.state, p'.state))
  | charged {charged left : StateTree} {change : Option StateChange} {sigPreVerified : Bool}
      (count : p'.chargedTxCount = p.chargedTxCount + 1)
      (taken : m.chargeTxFee start tx sigPreVerified = .ok (charged, change)) (keyed : start.Keyed → left.Keyed)
      (state : p'.state = m.mergeWriteSet left p.state ws) (reaches : ∀ ids, ws = .accounts ids → tx.sender ∈ ids) :
    Turned start ws tx p p' (some (charged, left))

end Machine

structure BlockInput where
  hashOf : BlockHeader → Hash
  activeSet : ValidatorSet
  store : BlockStore
  state : StateTree
  txs : List Transaction
  blockSlot : Nat
  governance : RuntimeGovernance

namespace BlockInput

variable (m : Machine) (b : BlockInput)

def verify (tx : Transaction) : Option (Except TxError Unit) := m.preVerify b.activeSet b.state b.blockSlot tx

def executeAt (batch : List Nat) (start : StateTree) (p : Progress) (index : Nat) : Progress :=
  match b.txs[index]? with
  | none => p
  | some tx =>
    if batch.length ≤ 1 then m.executeSingle b.hashOf b.store b.activeSet b.blockSlot (b.verify m tx) p index tx
    else m.executeParallel b.blockSlot (b.verify m tx) start p index tx

def workAt (batch : List Nat) (start : StateTree) (p : Progress) (tx : Transaction) : Option (StateTree × StateTree) :=
  match b.verify m tx with
  | some (.error _) => none
  | verified =>
    if batch.length ≤ 1 then m.singleWork b.hashOf b.store b.activeSet b.blockSlot verified.isSome p tx
    else m.parallelWork b.blockSlot verified.isSome start tx

def turnsAt (batch : List Nat) (start : StateTree) (p : Progress) (index : Nat) : List Turn :=
  match b.txs[index]? with
  | none => []
  | some tx =>
    let after := b.executeAt m batch start p index
    [⟨tx.sender, p.state, after.state, p.chargedTxCount < after.chargedTxCount, b.workAt m batch start p tx⟩]

def batchTurns (p : Progress) (batch : List Nat) : List Turn :=
  observations (b.executeAt m batch p.state) (b.turnsAt m batch p.state) p batch

def genesis : Progress := ⟨b.state, b.governance, fun _ => none, 0⟩

def executeBatch : Progress → List Nat → Progress :=
  m.executeBatch b.hashOf b.store b.activeSet b.blockSlot (b.verify m) b.txs

def turns : List Turn := observations (b.executeBatch m) (b.batchTurns m) b.genesis (m.buildBatches b.txs)

def chargedTxCount : Nat :=
  (m.executeTransactionsWithFees b.hashOf b.activeSet b.store b.state b.txs b.blockSlot b.governance).2.1

def debited : Int := ((b.turns m).map Turn.debit).sum

end BlockInput

/-- What the node's deployment fixes: the scheduler's write sets and batches, a dispatcher that refuses opcodes the
scheduler does not know, and handlers that keep every account under its own id. -/
structure Machine.Deployed (m : Machine) (bookAccount : Hash → AccountId) : Prop where
  writeSets : m.extractWriteSet = Scheduler.extractWriteSet bookAccount
  batches : ∀ txs, m.buildBatches txs = (Scheduler.buildBatches m.extractWriteSet txs).map (·.txIndices)
  known : ∀ state tx slot done, m.executeTransaction state tx slot = .ok done → m.extractWriteSet tx ≠ .accounts []
  transaction : ∀ state tx slot done, m.executeTransaction state tx slot = .ok done → state.Keyed → done.1.Keyed
  deposit : ∀ state tx done, m.executeBridgeDeposit state tx = .ok done → state.Keyed → done.1.Keyed
  completion : ∀ state tx done, m.executeWithdrawalCompletion state tx = .ok done → state.Keyed → done.1.Keyed
  withdraw : ∀ state tx slot done, m.executeOassetWithdraw state tx slot = .ok done → state.Keyed → done.1.Keyed
  liquid : ∀ state tx done, m.executeLiquid state tx = .ok done → state.Keyed → done.1.Keyed

namespace Machine

variable {m : Machine} {state start source charged : StateTree} {tx : Transaction} {sigPreVerified : Bool}
  {change : Option StateChange} {id : AccountId}

theorem chargeTxFee_cases (done : m.chargeTxFee state tx sigPreVerified = .ok (charged, change)) :
    state.get tx.sender = none ∧ charged = state ∨
      ∃ account, state.get tx.sender = some account ∧ txFee ≤ account.balance ∧
        charged = state.modify tx.sender (fun a => { a with balance := a.balance - txFee }) := by
  unfold chargeTxFee at done
  cases found : state.get tx.sender with
  | none =>
    rw [found] at done
    dsimp only at done
    split at done
    · cases done
    split at done
    · cases done
    · cases done
      exact .inl ⟨rfl, rfl⟩
  | some account =>
    rw [found] at done
    dsimp only at done
    split at done
    · cases done
    split at done
    · cases done
    · cases done
      exact .inr ⟨account, rfl, by omega, rfl⟩

theorem chargeTxFee_keyed (done : m.chargeTxFee state tx sigPreVerified = .ok (charged, change)) (keyed : state.Keyed) :
    charged.Keyed := by
  rcases chargeTxFee_cases done with ⟨-, rfl⟩ | ⟨account, -, -, rfl⟩
  · exact keyed
  · exact keyed.modify (fun _ => rfl)

theorem get_mergeAccount (keyed : source.Keyed) (other : AccountId) :
    (m.mergeAccount source state id).get other = if other = id then source.get id else state.get other := by
  have stored : ∀ (entries : List (Hash × Hash)) (t : StateTree),
      (entries.foldl (fun state entry => state.setStorage id entry.1 entry.2) t).accounts = t.accounts := by
    intro entries
    induction entries with
    | nil => exact fun t => rfl
    | cons entry rest ih => exact fun t => ih _
  unfold mergeAccount
  cases found : source.get id with
  | none =>
    exact get_remove m.derive state id other
  | some account =>
    have inserted : (state.insert m.derive account).get other = if other = id then some account else state.get other := by
      rw [get_insert, keyed id account found]
    dsimp only
    split
    · unfold StateTree.get
      rw [stored]
      exact inserted
    · exact inserted

theorem get_mergeWriteSet (keyed : source.Keyed) (ids : List AccountId) (other : AccountId) :
    (m.mergeWriteSet source state (.accounts ids)).get other =
      if other ∈ ids then source.get other else state.get other := by
  change (ids.foldl (m.mergeAccount source) state).get other = _
  induction ids generalizing state with
  | nil => rfl
  | cons id ids ih =>
    rw [foldl_cons, ih, get_mergeAccount keyed]
    by_cases later : other ∈ ids
    · rw [if_pos later, if_pos (mem_cons_of_mem id later)]
    · by_cases same : other = id
      · rw [if_neg later, if_pos same, if_pos (List.mem_cons.mpr (.inl same)), same]
      · rw [if_neg later, if_neg same, if_neg (by simp [same, later])]

theorem mergeWriteSet_keyed (from_ : source.Keyed) (into : state.Keyed) (ws : WriteSet) :
    (m.mergeWriteSet source state ws).Keyed := by
  cases ws with
  | global => exact from_
  | accounts ids =>
    intro id account found
    rw [get_mergeWriteSet from_] at found
    split at found
    · exact from_ id account found
    · exact into id account found

section Keyed

variable {bookAccount : Hash → AccountId} {derive : Derivations} {amount : Nat} {t t' : StateTree}

theorem debit_keyed (done : (treeOps derive).debit t id amount = .ok t') (keyed : t.Keyed) : t'.Keyed := by
  unfold LedgerOps.debit at done
  split at done
  · cases done
    exact keyed
  split at done
  · cases done
  split at done
  · cases done
  · cases done
    exact keyed.modify (fun _ => rfl)

theorem credit_keyed (done : (treeOps derive).credit t id amount = .ok t') (keyed : t.Keyed) : t'.Keyed := by
  unfold LedgerOps.credit at done
  split at done
  · cases done
    exact keyed
  split at done
  · cases done
  split at done
  · cases done
  · cases done
    exact keyed.modify (fun _ => rfl)

theorem ensureAccount_keyed (derive : Derivations) (id : AccountId) (keyed : t.Keyed) :
    ((treeOps derive).ensureAccount t id).Keyed := by
  unfold LedgerOps.ensureAccount
  split
  · exact keyed.insert derive _
  · exact keyed

theorem slash_keyed (derive : Derivations) (penaltyOf : Nat → Nat) (gov : RuntimeGovernance) (id : AccountId)
    (keyed : t.Keyed) :
    (gov.slash (treeOps derive) penaltyOf id t).2.2.Keyed := by
  unfold RuntimeGovernance.slash
  split
  · exact keyed
  dsimp only
  split
  · exact keyed
  split
  · exact keyed
  rename_i debited
  have funded := ensureAccount_keyed derive treasuryAccount (debit_keyed debited keyed)
  split
  · exact funded
  · rename_i credited
    exact credit_keyed credited funded

theorem executeOmissionEvidence_keyed {hashOf : BlockHeader → Hash} {store : BlockStore} {activeSet : ValidatorSet}
    {gov gov' : RuntimeGovernance} {receipt : VmReceipt} {state' : StateTree}
    (done : m.executeOmissionEvidence hashOf store activeSet state gov tx = .ok (state', gov', receipt))
    (keyed : state.Keyed) :
    state'.Keyed := by
  unfold executeOmissionEvidence at done
  split at done
  · cases done
  dsimp only at done
  split at done
  · cases done
  split at done
  · cases done
  split at done
  · cases done
  rename_i producer _
  have slashed := slash_keyed m.derive builderSlashAmount gov producer keyed
  split at done <;> rename_i result
  · cases done
  · cases done
    unfold RuntimeGovernance.slashBuilderInTree at result
    rw [result] at slashed
    exact (ensureAccount_keyed m.derive treasuryAccount slashed).of_accounts rfl

variable (deployed : m.Deployed bookAccount)
include deployed

theorem handle_keyed {slot : Nat} {done : StateTree × VmReceipt} (ran : m.handle state tx slot = .ok done)
    (keyed : state.Keyed) :
    done.1.Keyed := by
  unfold handle at ran
  split at ran
  · exact deployed.withdraw state tx slot done ran keyed
  split at ran
  · exact deployed.liquid state tx done ran keyed
  · exact deployed.transaction state tx slot done ran keyed

theorem handleInBatch_keyed {slot : Nat} {done : StateTree × VmReceipt} (ran : m.handleInBatch state tx slot = .ok done)
    (keyed : state.Keyed) : done.1.Keyed := by
  unfold handleInBatch at ran
  split at ran
  · exact deployed.liquid state tx done ran keyed
  · exact deployed.transaction state tx slot done ran keyed

theorem sender_mem_of_handled {slot : Nat} {done : StateTree × VmReceipt} {ids : List AccountId}
    (finite : m.extractWriteSet tx = .accounts ids) (ran : m.handleInBatch charged tx slot = .ok done) : tx.sender ∈ ids := by
  have set : Scheduler.extractWriteSet bookAccount tx = .accounts ids := by rw [← deployed.writeSets, finite]
  rcases Scheduler.sender_mem_extractWriteSet set with rfl | member
  · unfold handleInBatch at ran
    split at ran <;> rename_i liquid
    · have opcode : tx.payload.head? = some opLiquid := by simpa [hasOpcode] using liquid
      have order := (liquidWriteSet_ok (extractWriteSet_liquid opcode ▸ set)).2.1
      cases order
    · exact absurd finite (deployed.known _ tx slot done ran)
  · exact member

theorem executeSingle_turned (hashOf : BlockHeader → Hash) (store : BlockStore) (activeSet : ValidatorSet) (blockSlot : Nat)
    {verified : Option (Except TxError Unit)} (accepted : ∀ error, verified ≠ some (.error error)) (p : Progress)
    (index : Nat) (tx : Transaction) :
    Turned m p.state .global tx p (m.executeSingle hashOf store activeSet blockSlot verified p index tx)
      (m.singleWork hashOf store activeSet blockSlot verified.isSome p tx) := by
  have uncharged : ∀ result : Except String (StateTree × VmReceipt),
      (∀ done, result = .ok done → p.state.Keyed → done.1.Keyed) →
      Turned m p.state .global tx p (m.settleUncharged p index tx result) (workOf p.state result) := by
    intro result keeps
    cases result with
    | error text => exact .refused rfl rfl
    | ok done => exact .free rfl rfl (keeps done rfl)
  unfold executeSingle singleWork
  split
  · exact absurd rfl (accepted _)
  split
  · exact uncharged _ (fun done => deployed.deposit _ _ done)
  split
  · exact uncharged _ (fun done => deployed.completion _ _ done)
  split
  · cases evidence : m.executeOmissionEvidence hashOf store activeSet p.state p.governance tx with
    | ok done => exact .free rfl rfl (executeOmissionEvidence_keyed evidence)
    | error error => exact .refused rfl rfl
  cases taken : m.chargeTxFee p.state tx verified.isSome with
  | error error => exact .refused rfl rfl
  | ok paid =>
    dsimp only
    split
    · exact .refused rfl rfl
    cases ran : m.handle paid.1 tx blockSlot with
    | error text => exact .refused rfl rfl
    | ok done =>
      exact .charged rfl taken (fun keyed => handle_keyed deployed ran (chargeTxFee_keyed taken keyed)) rfl nofun

theorem executeParallel_turned (blockSlot : Nat) {verified : Option (Except TxError Unit)}
    (accepted : ∀ error, verified ≠ some (.error error)) (start : StateTree) (p : Progress) (index : Nat) (tx : Transaction) :
    Turned m start (m.extractWriteSet tx) tx p (m.executeParallel blockSlot verified start p index tx)
      (m.parallelWork blockSlot verified.isSome start tx) := by
  unfold executeParallel parallelWork
  split
  · exact absurd rfl (accepted _)
  cases taken : m.chargeTxFee start tx verified.isSome with
  | error error => exact .refused rfl rfl
  | ok paid =>
    obtain ⟨charged, feeChange⟩ := paid
    change Turned m start _ tx p (m.settleCharged p index tx feeChange ((m.handleInBatch charged tx blockSlot).map _))
      (workOf charged (m.handleInBatch charged tx blockSlot))
    cases ran : m.handleInBatch charged tx blockSlot with
    | error text => exact .refused rfl rfl
    | ok done =>
      exact .charged rfl taken (fun keyed => handleInBatch_keyed deployed ran (chargeTxFee_keyed taken keyed)) rfl
        (fun ids finite => sender_mem_of_handled deployed finite ran)

end Keyed

namespace Turned

variable {ws : WriteSet} {p p' : Progress} {work : Option (StateTree × StateTree)} (turned : Turned m start ws tx p p' work)
include turned

theorem count : p'.chargedTxCount = p.chargedTxCount + if p.chargedTxCount < p'.chargedTxCount then 1 else 0 := by
  cases turned with
  | refused count state => simp [count]
  | free single count keyed => simp [count]
  | charged count taken keyed state reaches => simp [count]

theorem keyed (from_ : start.Keyed) (keyed : p.state.Keyed) : p'.state.Keyed := by
  cases turned with
  | refused count state => exact state ▸ keyed
  | free single count keeps => exact keeps keyed
  | charged count taken own state reaches => exact state ▸ mergeWriteSet_keyed (own from_) keyed ws

theorem elsewhere (from_ : start.Keyed) {ids : List AccountId} (finite : ws = .accounts ids) {other : AccountId}
    (outside : other ∉ ids) : p'.state.get other = p.state.get other := by
  cases turned with
  | refused count state => rw [state]
  | free single count keeps =>
    rw [finite] at single
    cases single
  | charged count taken own state reaches => rw [state, finite, get_mergeWriteSet (own from_), if_neg outside]

theorem debit (from_ : start.Keyed)
    (same : (∀ ids, ws = .accounts ids → tx.sender ∈ ids) → p.state.get tx.sender = start.get tx.sender) :
    let turn : Turn := ⟨tx.sender, p.state, p'.state, p.chargedTxCount < p'.chargedTxCount, work⟩
    turn.debit = if turn.counted = true ∧ turn.Funded then (txFee : Int) else 0 := by
  unfold Turn.debit
  cases turned with
  | refused count state => simp [count, state]
  | free single count keeps => simp [count]
  | @charged charged left change sigPreVerified count taken own state reaches =>
    have same := same reaches
    have reached : p'.state.get tx.sender = left.get tx.sender := by
      rw [state]
      cases ws with
      | global => rfl
      | accounts ids => rw [get_mergeWriteSet (own from_), if_pos (reaches ids rfl)]
    have lost : (p.state.balanceOf tx.sender : Int) - p'.state.balanceOf tx.sender -
        ((charged.balanceOf tx.sender : Int) - left.balanceOf tx.sender) =
          start.balanceOf tx.sender - charged.balanceOf tx.sender := by
      rw [balanceOf_eq p.state, balanceOf_eq p'.state, same, reached, ← balanceOf_eq, ← balanceOf_eq]
      omega
    have funded : p.state.contains tx.sender = (start.get tx.sender).isSome := congrArg Option.isSome same
    dsimp only
    rw [lost]
    rcases chargeTxFee_cases taken with ⟨missing, rfl⟩ | ⟨account, found, covers, rfl⟩
    · rw [missing] at funded
      rw [if_neg (fun both => Bool.noConfusion (funded.symm.trans both.2)), Int.sub_self]
    · have left : (start.modify tx.sender (fun a => { a with balance := a.balance - txFee })).balanceOf tx.sender =
          account.balance - txFee := by
        rw [balanceOf_eq, get_modify, if_pos rfl, found, Option.map_some, Option.map_some, Option.getD_some]
      rw [found] at funded
      rw [balanceOf_of_get found, left, if_pos ⟨by simp [count], funded⟩]
      omega

end Turned

end Machine

open Machine

namespace BlockInput

variable {m : Machine} {bookAccount : Hash → AccountId} {b : BlockInput} {batch : List Nat} {start : StateTree} {p : Progress}

section Deployed

variable (deployed : m.Deployed bookAccount)
include deployed

theorem executeAt_turned (b : BlockInput) (batch : List Nat) (start : StateTree) (p : Progress)
    {index : Nat} {tx : Transaction}
    (found : b.txs[index]? = some tx) :
    if batch.length ≤ 1 then
      Turned m p.state .global tx p (b.executeAt m batch start p index) (b.workAt m batch start p tx)
    else
      Turned m start (m.extractWriteSet tx) tx p (b.executeAt m batch start p index) (b.workAt m batch start p tx) := by
  unfold executeAt workAt
  rw [found]
  dsimp only
  generalize b.verify m tx = verified
  by_cases refused : ∃ error, verified = some (.error error)
  · obtain ⟨error, rfl⟩ := refused
    split <;> exact .refused rfl rfl
  have accepted := not_exists.mp refused
  split
  · split
    · exact absurd rfl (accepted _)
    · exact executeSingle_turned deployed b.hashOf b.store b.activeSet b.blockSlot accepted p index tx
  · split
    · exact absurd rfl (accepted _)
    · exact executeParallel_turned deployed b.blockSlot accepted start p index tx

theorem executeAt_count (b : BlockInput) (batch : List Nat) (start : StateTree) (p : Progress) (index : Nat) :
    (b.executeAt m batch start p index).chargedTxCount =
      p.chargedTxCount + (b.turnsAt m batch start p index).countP (·.counted) := by
  unfold turnsAt
  cases found : b.txs[index]? with
  | none =>
    unfold executeAt
    rw [found]
    rfl
  | some tx =>
    have turned := executeAt_turned deployed b batch start p found
    rw [countP_singleton]
    split at turned
    · simpa using turned.count
    · simpa using turned.count

theorem chargedTxCount_eq (b : BlockInput) : b.chargedTxCount m = (b.turns m).countP (·.counted) := by
  have counted : ((m.buildBatches b.txs).foldl (b.executeBatch m) b.genesis).chargedTxCount =
      b.genesis.chargedTxCount + (b.turns m).countP (·.counted) := by
    apply count_foldl
    intro p batch
    exact count_foldl (executeAt_count deployed b batch p.state)
  rw [show b.genesis.chargedTxCount = 0 from rfl, Nat.zero_add] at counted
  exact counted

theorem executeAt_keyed (index : Nat) (from_ : start.Keyed) (keyed : p.state.Keyed) :
    (b.executeAt m batch start p index).state.Keyed := by
  cases found : b.txs[index]? with
  | none =>
    unfold executeAt
    rw [found]
    exact keyed
  | some tx =>
    have turned := executeAt_turned deployed b batch start p found
    split at turned
    · exact turned.keyed keyed keyed
    · exact turned.keyed from_ keyed

/-- What a larger batch has still to run: transactions of finite write sets, no two of which meet, on accounts as they
were at its start. -/
structure Untouched (m : Machine) (b : BlockInput) (start : StateTree) (rest : List Nat) (p : Progress) : Prop where
  finite : ∀ i ∈ rest, ∀ tx, b.txs[i]? = some tx → ∃ ids, m.extractWriteSet tx = .accounts ids
  apart : rest.Pairwise (fun i j => ∀ tx tx', b.txs[i]? = some tx → b.txs[j]? = some tx' →
    conflictsWith (m.extractWriteSet tx) (m.extractWriteSet tx') = false)
  same : ∀ i ∈ rest, ∀ tx ids, b.txs[i]? = some tx → m.extractWriteSet tx = .accounts ids →
    ∀ id ∈ ids, p.state.get id = start.get id

theorem Untouched.next {index : Nat} {rest : List Nat} (untouched : Untouched m b start (index :: rest) p)
    (large : ¬ batch.length ≤ 1) (from_ : start.Keyed) : Untouched m b start rest (b.executeAt m batch start p index) where
  finite i member := untouched.finite i (mem_cons_of_mem index member)
  apart := untouched.apart.of_cons
  same := by
    intro i member tx ids found set id inside
    have before := untouched.same i (mem_cons_of_mem index member) tx ids found set id inside
    cases head : b.txs[index]? with
    | none =>
      unfold executeAt
      rw [head]
      exact before
    | some first =>
      have turned := executeAt_turned deployed b batch start p head
      rw [if_neg large] at turned
      have free := rel_of_pairwise_cons untouched.apart member first tx head found
      obtain ⟨others, ids', written, set', disjoint⟩ := conflictsWith_eq_false.mp free
      rw [set] at set'
      cases set'
      rw [turned.elsewhere from_ written (fun inner => disjoint id inner inside)]
      exact before

theorem debit_of_untouched {rest : List Nat} (large : ¬ batch.length ≤ 1) (from_ : start.Keyed)
    (untouched : Untouched m b start rest p) :
    ∀ t ∈ observations (b.executeAt m batch start) (b.turnsAt m batch start) p rest,
      t.debit = if t.counted = true ∧ t.Funded then (txFee : Int) else 0 := by
  induction rest generalizing p with
  | nil => intro t member; cases member
  | cons index rest ih =>
    intro t member
    rcases List.mem_append.mp member with now | later
    · unfold turnsAt at now
      split at now <;> rename_i found
      · cases now
      rename_i tx
      have turned := executeAt_turned deployed b batch start p found
      rw [if_neg large] at turned
      obtain ⟨ids, set⟩ := untouched.finite index mem_cons_self tx found
      rw [List.mem_singleton.mp now]
      exact turned.debit from_ fun reaches => untouched.same index mem_cons_self tx ids found set _ (reaches ids set)
    · exact ih (untouched.next deployed large from_) t later

end Deployed

theorem finite_of_sound {c : Batch} (sound : c.Sound m.extractWriteSet b.txs b.txs.length)
    (large : ¬ c.txIndices.length ≤ 1) {i : Nat} (member : i ∈ c.txIndices) {tx : Transaction} (found : b.txs[i]? = some tx) :
    ∃ ids, m.extractWriteSet tx = .accounts ids := by
  have other : ∃ j ∈ c.txIndices, i ≠ j := by
    have nodup := sound.nodup
    cases indices : c.txIndices with
    | nil => simp [indices] at large
    | cons first rest =>
      cases rest with
      | nil => simp [indices] at large
      | cons second rest =>
        rw [indices] at nodup
        have differ : first ≠ second := fun same => (List.nodup_cons.mp nodup).1 (same ▸ mem_cons_self)
        by_cases own : i = first
        · exact ⟨second, by simp, own ▸ differ⟩
        · exact ⟨first, by simp, own⟩
  obtain ⟨j, inside, differ⟩ := other
  have free := Scheduler.Batch.Sound.free sound member inside differ found (List.getElem?_eq_getElem (sound.below j inside))
  obtain ⟨ids, -, set, -⟩ := conflictsWith_eq_false.mp free
  exact ⟨ids, set⟩

section Deployed

variable (deployed : m.Deployed bookAccount)
include deployed

theorem debit_of_mem_turns (keyed : b.state.Keyed) :
    ∀ t ∈ b.turns m, t.debit = if t.counted = true ∧ t.Funded then (txFee : Int) else 0 := by
  have walked : ∀ (batch : List Nat) (p : Progress), p.state.Keyed → (b.executeBatch m p batch).state.Keyed := by
    intro batch p start
    exact List.foldlRecOn batch (motive := fun q : Progress => q.state.Keyed) _ start
      (fun q holds index _ => executeAt_keyed deployed index start holds)
  refine forall_observations (fun p : Progress => p.state.Keyed) (fun p batch _ holds => walked batch p holds) ?_ keyed
  intro p batch member holds
  rw [deployed.batches] at member
  obtain ⟨c, built, rfl⟩ := List.mem_map.mp member
  have sound := Scheduler.buildBatches_sound m.extractWriteSet b.txs c built
  by_cases small : c.txIndices.length ≤ 1
  · refine forall_observations (fun q : Progress => q.state.Keyed)
      (fun q index _ kept => executeAt_keyed deployed index holds kept) ?_ holds
    intro q index _ kept t now
    unfold turnsAt at now
    split at now <;> rename_i found
    · cases now
    · have turned := executeAt_turned deployed b c.txIndices p.state q found
      rw [if_pos small] at turned
      rw [List.mem_singleton.mp now]
      exact turned.debit kept fun _ => rfl
  · apply debit_of_untouched deployed small holds
    exact ⟨fun i inside tx found => finite_of_sound sound small inside found, sound.apart, fun _ _ _ _ _ _ _ _ => rfl⟩

end Deployed

end BlockInput

theorem count_mul_eq_sum_iff {α : Type} {amount : Int} (positive : 0 < amount) (p : α → Bool) (P : α → Prop)
    [DecidablePred P] (f : α → Int) (xs : List α) (value : ∀ x ∈ xs, f x = if p x = true ∧ P x then amount else 0) :
    (xs.map f).sum ≤ xs.countP p * amount ∧ (xs.countP p * amount = (xs.map f).sum ↔ ∀ x ∈ xs, p x = true → P x) := by
  induction xs with
  | nil => simp
  | cons x xs ih =>
    obtain ⟨bound, exact_⟩ := ih (fun y member => value y (mem_cons_of_mem x member))
    have first := value x mem_cons_self
    rw [map_cons, sum_cons, countP_cons, forall_mem_cons, ← exact_, first, Nat.cast_add, Int.add_mul]
    by_cases counts : p x = true
    · by_cases holds : P x
      · simp only [counts, holds, if_true, and_self, true_implies, true_and]
        omega
      · simp only [counts, holds, if_true, and_false, if_false, true_implies, false_and, iff_false]
        omega
    · rw [Bool.not_eq_true] at counts
      simp only [counts, Bool.false_eq_true, if_false, false_and, false_implies, true_and]
      omega

/-- What moves fees: a block that is executed and told to the tracker, and a payout. -/
inductive FeeEvent where
  | block (b : BlockInput)
  | payout

structure FeeLedger where
  tracker : EpochTracker
  collected : Int
  paid : Nat

namespace FeeLedger

variable (m : Machine)

def start : FeeLedger := ⟨.new, 0, 0⟩

def step (l : FeeLedger) (event : FeeEvent) : FeeLedger :=
  match event with
  | .block b => ⟨(l.tracker.onBlock (b.chargedTxCount m)).2, l.collected + b.debited m, l.paid⟩
  | .payout => ⟨l.tracker.takeFees.2, l.collected, l.paid + l.tracker.takeFees.1⟩

def Funded (event : FeeEvent) : Prop :=
  match event with
  | .block b => b.state.Keyed ∧ ∀ t ∈ b.turns m, t.counted = true → t.Funded
  | .payout => True

def Covered (l : FeeLedger) : Prop := l.paid + l.tracker.accumulatedFees ≤ l.collected

theorem accumulatedFees_onBlock_le (t : EpochTracker) (txCount : Nat) :
    (t.onBlock txCount).2.accumulatedFees ≤ t.accumulatedFees + txCount * txFee := by
  unfold EpochTracker.onBlock u64SatAdd u64SatMul
  dsimp only
  split
  · dsimp only
    omega
  · dsimp only
    omega

end FeeLedger

open FeeLedger

section

variable {m : Machine} {bookAccount : Hash → AccountId} (deployed : m.Deployed bookAccount)
include deployed

theorem BlockInput.charged_eq_debited_iff {b : BlockInput} (keyed : b.state.Keyed) :
    b.chargedTxCount m * txFee = b.debited m ↔ ∀ t ∈ b.turns m, t.counted = true → t.Funded := by
  rw [chargedTxCount_eq deployed]
  exact (count_mul_eq_sum_iff (by decide) (·.counted) Turn.Funded Turn.debit (b.turns m)
    (debit_of_mem_turns deployed keyed)).2

theorem FeeLedger.step_covered {l : FeeLedger} {event : FeeEvent} (covered : l.Covered) (funded : Funded m event) :
    (l.step m event).Covered := by
  unfold Covered at covered ⊢
  cases event with
  | block b =>
    have exact_ := (b.charged_eq_debited_iff deployed funded.1).mpr funded.2
    have grown := accumulatedFees_onBlock_le l.tracker (b.chargedTxCount m)
    change l.paid + (l.tracker.onBlock (b.chargedTxCount m)).2.accumulatedFees ≤ l.collected + b.debited m
    omega
  | payout =>
    change ((l.paid + l.tracker.accumulatedFees : Nat) + (0 : Nat) : Int) ≤ l.collected
    omega

/-- A block's count of charged transactions stands for the fees debited exactly if every payer counted has an account;
along blocks of which that holds, the tracker never holds or pays out more than was debited. -/
theorem fee_accounting_exact_iff :
    (∀ b : BlockInput, b.state.Keyed →
        (b.chargedTxCount m * txFee = b.debited m ↔ ∀ t ∈ b.turns m, t.counted = true → t.Funded)) ∧
      ∀ events : List FeeEvent, (∀ event ∈ events, Funded m event) →
        (run (step m) start events).Covered := by
  constructor
  · exact fun b keyed => b.charged_eq_debited_iff deployed keyed
  · intro events funded
    have start : start.Covered := Int.le_refl 0
    refine run_invariant ?_ start (meets_true events)
    exact fun l event member covered _ => step_covered deployed covered (funded event member)

end

/-! The node with the native executor as its only engine. -/

namespace SmallFees

def bookAccount (market : Hash) : AccountId := ⟨market⟩

def writeSet : Transaction → WriteSet := extractWriteSet bookAccount

def executeTransaction (state : StateTree) (tx : Transaction) : Except String (StateTree × VmReceipt) :=
  if writeSet tx = .accounts [] then .error "unknown opcode"
  else
    match operations.externals.executeTransaction state tx with
    | (.error error, _) => .error error.text
    | (.ok changes, after) => .ok (after, ⟨tx.attestation.objHash, true, tx.sender, changes, none, none⟩)

def machine : Machine :=
  { SmallChain.machine with
    verifyCredential := operations.verifyCredential
    decodeOther := Operations.decodeOther
    buildBatches := fun txs => (buildBatches writeSet txs).map (·.txIndices)
    extractWriteSet := writeSet
    executeTransaction := fun state tx _ => executeTransaction state tx }

theorem machine_deployed : machine.Deployed bookAccount where
  writeSets := rfl
  batches _ := rfl
  known state tx slot done ran := by
    change executeTransaction state tx = .ok done at ran
    unfold executeTransaction at ran
    split at ran <;> rename_i unknown
    · cases ran
    · exact unknown
  transaction state tx slot done ran keyed := by
    have grows := Operations.executeTransaction_grows operations state tx
    change executeTransaction state tx = .ok done at ran
    unfold executeTransaction at ran
    split at ran
    · cases ran
    split at ran <;> rename_i after executed
    · cases ran
    · cases ran
      rw [executed] at grows
      exact grows.keyed keyed
  deposit state tx done ran := by cases ran
  completion state tx done ran := by cases ran
  withdraw state tx slot done ran := by cases ran
  liquid state tx done ran := by cases ran

def tree : StateTree :=
  new.insert machine.derive { owned with balance := 50000, nonce := 0 }

theorem tree_keyed : tree.Keyed := by
  apply StateTree.Keyed.insert
  intro id account found
  cases found

def block (txs : List Transaction) : BlockInput where
  hashOf := headerHash
  activeSet := validatorSet
  store := .new none
  state := tree
  txs := txs
  blockSlot := 2
  governance := governance

def transferBlock : BlockInput := block [selfTransfer 1 7]

theorem transfer_fee_accounted : (transferBlock.chargedTxCount machine = 1 ∧ transferBlock.debited machine = txFee) ∧
    transferBlock.chargedTxCount machine * txFee = transferBlock.debited machine ∧
      (run (step machine) start [.block transferBlock, .payout]).Covered := by
  have funded : ∀ t ∈ transferBlock.turns machine, t.counted = true → t.Funded := by decide +kernel
  refine ⟨by decide +kernel, ((fee_accounting_exact_iff machine_deployed).1 transferBlock tree_keyed).mpr funded,
    (fee_accounting_exact_iff machine_deployed).2 _ ?_⟩
  intro event member
  rcases List.mem_cons.mp member with rfl | later
  · exact ⟨tree_keyed, funded⟩
  · rw [List.mem_singleton.mp later]
    trivial

/-- An account that creates itself pays nothing and is counted; the tracker then pays out a fee nobody was debited. -/
theorem creation_counted_unpaid :
    let creation := block [creation 5 7]
    creation.chargedTxCount machine = 1 ∧ creation.debited machine = 0 ∧
      (run (step machine) start [.block creation, .payout]).paid = txFee := by
  decide +kernel

end SmallFees

end AceChain.Node
