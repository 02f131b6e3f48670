import AceChain.Consensus.ValidatorSet
import AceChain.Governance.NodeRegistry
import AceChain.Governance.Rewards
import AceChain.Runtime.Block
import AceChain.State.ShardedState

namespace AceChain.Governance

open Consensus State ShardedState StateTree

def treasuryAccount : AccountId := ⟨BitVec.allOnes 256⟩

def approvedValidatorStake : Nat := 100

def builderSlashDivisor : Nat := 100

structure GovernanceState where
  epochTracker : EpochTracker
  nodeRegistry : NodeRegistry
  affiliateRegistry : AffiliateRegistry
  admissionController : AdmissionController
  approvedValidators : List Validator

/-- Loading rejects every policy but the first two; `admit_validator` still has the third branch. -/
inductive AdmissionPolicy where
  | devnetDerived
  | founderProvided
  | unsupported (name : String)
deriving DecidableEq

structure RuntimeGovernance where
  state : GovernanceState
  snapshots : Std.TreeMap Nat GovernanceState
  genesisTimeMs : Nat
  leaderMissCounts : AccountId → Nat
  founderIdCom : Option AccountId
  validatorAdmissionPolicy : AdmissionPolicy

inductive BalanceError where
  | accountNotFound (id : AccountId)
  | insufficientBalance (id : AccountId) (have_ need : Nat)
  | balanceOverflow (id : AccountId)
deriving DecidableEq

/-- The account operations a balance change needs, on the sharded state or on one shard. -/
structure LedgerOps (σ : Type) where
  get : σ → AccountId → Option Account
  modify : σ → AccountId → (Account → Account) → σ
  insert : σ → Account → σ

def shardedOps (derive : Derivations) : LedgerOps ShardedState where
  get := get
  modify := modify
  insert := insert derive

def treeOps (derive : Derivations) : LedgerOps StateTree where
  get := get
  modify := modify
  insert := insert derive

namespace LedgerOps

variable {σ : Type} (ops : LedgerOps σ)

def debit (state : σ) (id : AccountId) (amount : Nat) : Except BalanceError σ :=
  if amount = 0 then .ok state
  else
    match ops.get state id with
    | none => .error (.accountNotFound id)
    | some account =>
      if account.balance < amount then .error (.insufficientBalance id account.balance amount)
      else .ok (ops.modify state id (fun a => { a with balance := a.balance - amount }))

def credit (state : σ) (id : AccountId) (amount : Nat) : Except BalanceError σ :=
  if amount = 0 then .ok state
  else
    match ops.get state id with
    | none => .error (.accountNotFound id)
    | some account =>
      match u64CheckedAdd account.balance amount with
      | none => .error (.balanceOverflow id)
      | some balance => .ok (ops.modify state id (fun a => { a with balance := balance }))

def ensureAccount (state : σ) (id : AccountId) : σ :=
  if (ops.get state id).isNone then ops.insert state (Account.new id) else state

end LedgerOps

def debitBalance (derive : Derivations) := (shardedOps derive).debit

def creditBalance (derive : Derivations) := (shardedOps derive).credit

def builderSlashAmount (balance : Nat) : Nat :=
  if balance = 0 then 0 else min (max (balance / builderSlashDivisor) txFee) balance

def equivocationSlashAmount (balance : Nat) : Nat := balance

def epochDurationMs : Nat := blocksPerEpoch * Runtime.slotDurationMs

namespace GovernanceState

variable (g : GovernanceState)

def modifyNode (id : AccountId) (f : NodeInfo → NodeInfo) : GovernanceState :=
  { g with nodeRegistry := g.nodeRegistry.modifyNode id f }

def suspend (id : AccountId) : GovernanceState :=
  { g with nodeRegistry := g.nodeRegistry.setStatus id .suspended }

/-- The counts are written for registered nodes only, so no `NotFound` comes back. -/
def syncAffiliateCounts : Except RegistryError GovernanceState :=
  g.nodeRegistry.activeNodes.foldlM (fun g node => do
    let registry ← g.nodeRegistry.setAffiliateCount node.idCom (g.affiliateRegistry.activeAffiliateCount node.idCom)
    return { g with nodeRegistry := registry }) g

def rewardProfiles (validatorSet : ValidatorSet) (nowMs : Nat) : List RewardProfile :=
  validatorSet.validators.filterMap (fun validator =>
    match g.nodeRegistry.getNode validator.idCom with
    | none => none
    | some node =>
      if !node.isConsensusEligible nowMs then none
      else
        let capped := node.cappedAgeMonths nowMs ageCapMonths
        some ⟨validator.idCom, node.perfEmaBps, capped * bpsDenominator / ageCapMonths⟩)

def rollPerformance (nowMs : Nat) (entry : NodeInfo) : NodeInfo :=
  let expired := entry.kycStatus = .approved &&
    match entry.kycExpiresAtMs with
    | some expiry => expiry ≠ 0 && expiry < nowMs
    | none => false
  let attempts := min (entry.currentEpochSuccesses + entry.currentEpochFailures) u32Max
  let observed := entry.currentEpochSuccesses * bpsDenominator / attempts
  let blended := (entry.perfEmaBps * perfEmaPrevBps + observed * perfEmaCurBps) / bpsDenominator
  { entry with
    kycStatus := if expired then .expired else entry.kycStatus
    perfEmaBps :=
      if 0 < attempts then min (max blended perfWeightFloorBps) perfWeightCeilBps else entry.perfEmaBps
    currentEpochSuccesses := 0
    currentEpochFailures := 0 }

def rollEpochPerformance (nowMs : Nat) : GovernanceState :=
  g.nodeRegistry.activeNodes.foldl (fun g node => g.modifyNode node.idCom (rollPerformance nowMs)) g

end GovernanceState

inductive GovernanceError where
  | balance (error : BalanceError)
  | registry (error : RegistryError)
deriving DecidableEq

inductive AdmissionError where
  | disabled
  | senderNotFounder (sender : AccountId)
  | alreadyRegistered (candidate : AccountId)
  | atCapacity
  | emptyPubkey
  | pubkeyLength (length : Nat)
  | notDevnetKey (candidate : AccountId)
  | unsupportedPolicy (name : String)
  | pubkeyTaken
  | validatorSet (error : AddValidatorError)
  | registry (error : RegistryError)
deriving DecidableEq

def validateApproveValidatorSender (founderIdCom : Option AccountId) (sender : AccountId) :
    Except AdmissionError Unit :=
  match founderIdCom with
  | none => .error .disabled
  | some founder => if sender ≠ founder then .error (.senderNotFounder sender) else .ok ()

def parseSigningPubkey (bytes : List UInt8) : Except AdmissionError TaggedPubkey :=
  if bytes.length = 0 then .error .emptyPubkey
  else if bytes.length = 32 then .ok (.ed25519 bytes)
  else if bytes.length = 1312 then .ok (.mlDsa44 bytes)
  else .error (.pubkeyLength bytes.length)

namespace RuntimeGovernance

variable (g : RuntimeGovernance)

def cloneForPreview : RuntimeGovernance := { g with snapshots := ∅ }

def replaceFromPreview (g preview : RuntimeGovernance) : RuntimeGovernance :=
  { g with
    state := preview.state
    snapshots := ∅
    leaderMissCounts := preview.leaderMissCounts
    founderIdCom := preview.founderIdCom
    validatorAdmissionPolicy := preview.validatorAdmissionPolicy }

def approvedValidators : List Validator := g.state.approvedValidators

def snapshot (slot : Nat) : RuntimeGovernance :=
  { g with snapshots := g.snapshots.insert slot g.state }

def rollback (slot : Nat) : RuntimeGovernance :=
  { g with
    state := g.snapshots[slot]?.getD g.state
    snapshots := g.snapshots.filter (fun snapSlot _ => decide (snapSlot < slot)) }

def epochStartMs (epoch : Nat) : Nat :=
  u64Add g.genesisTimeMs (u64SatMul epoch epochDurationMs)

section

variable (derive : Derivations)

def payRewards (state : ShardedState) (rewards : List (AccountId × Nat)) : Except BalanceError ShardedState :=
  rewards.foldlM (fun state reward =>
    creditBalance derive ((shardedOps derive).ensureAccount state reward.1) reward.1 reward.2) state

def settleAffiliate (operator : AccountId) (startMs endMs : Nat) (acc : GovernanceState × ShardedState)
    (affiliate : AffiliateInfo) : Except BalanceError (GovernanceState × ShardedState) :=
  let (g, state) := acc
  let drop := { g with affiliateRegistry := g.affiliateRegistry.deactivate affiliate.idCom }
  let feeDue := g.affiliateRegistry.calculateAffiliateFeeForWindow affiliate startMs endMs
  if feeDue = 0 then .ok (g, state)
  else if (state.get operator).isNone || (state.get affiliate.idCom).isNone then .ok (drop, state)
  else
    let available := ((state.get affiliate.idCom).map (·.balance)).getD 0
    let collected := min feeDue available
    let g := if collected < feeDue then drop else g
    if 0 < collected then do
      let state ← debitBalance derive state affiliate.idCom collected
      let state ← creditBalance derive state operator collected
      return (g, state)
    else .ok (g, state)

variable (g : GovernanceState)

def settleAffiliateFees (state : ShardedState) (startMs endMs : Nat) :
    Except BalanceError (GovernanceState × ShardedState) :=
  (g.nodeRegistry.activeNodes.map (·.idCom)).foldlM (fun acc operator =>
    (acc.1.affiliateRegistry.getAffiliates operator).foldlM (settleAffiliate derive operator startMs endMs) acc)
    (g, state)

def settleRewards (state : ShardedState) (validatorSet : ValidatorSet)
    (completedEpoch endMs : Nat) : Except BalanceError (GovernanceState × ShardedState) :=
  let profiles := g.rewardProfiles validatorSet endMs
  if profiles.isEmpty then .ok (g, state)
  else
    let (fees, tracker) := g.epochTracker.takeFees
    let blockReward := RewardEngine.epochRewardPool completedEpoch tracker.totalMinted profiles.length
    let rewards := RewardEngine.distribute completedEpoch tracker.totalMinted fees profiles
    match payRewards derive state rewards with
    | .error error => .error error
    | .ok state => .ok ({ g with epochTracker := tracker.recordMint blockReward }, state)

def adjustAdmission (completedEpoch blockTimestampMs : Nat) : GovernanceState :=
  let activeCount := g.nodeRegistry.activeNodes.length
  let (slotsToRelease, controller) :=
    g.admissionController.onEpochBoundary completedEpoch g.epochTracker.lastEpochTxCount activeCount
  let g := { g with admissionController := controller }
  if 0 < slotsToRelease then
    { g with nodeRegistry := g.nodeRegistry.promoteStandby slotsToRelease blockTimestampMs }
  else g

def applyCompletedBlock (gov : RuntimeGovernance) (state : ShardedState) (validatorSet : ValidatorSet)
    (chargedTxCount blockTimestampMs : Nat) : Except GovernanceError (RuntimeGovernance × ShardedState) :=
  let (completed, tracker) := gov.state.epochTracker.onBlock chargedTxCount
  let g := { gov.state with epochTracker := tracker }
  match completed with
  | none => .ok ({ gov with state := g }, state)
  | some completedEpoch =>
    let startMs := gov.epochStartMs completedEpoch
    let endMs := u64Add startMs epochDurationMs
    let g := g.rollEpochPerformance endMs
    match settleRewards derive g state validatorSet completedEpoch endMs with
    | .error error => .error (.balance error)
    | .ok (g, state) =>
      match settleAffiliateFees derive g state startMs endMs with
      | .error error => .error (.balance error)
      | .ok (g, state) =>
        match g.syncAffiliateCounts with
        | .error error => .error (.registry error)
        | .ok g => .ok ({ gov with state := adjustAdmission g completedEpoch blockTimestampMs }, state)

end

variable (g : RuntimeGovernance) (id : AccountId)

def noteValidatorSuccess : RuntimeGovernance :=
  { g with
    state := g.state.modifyNode id (fun node =>
      { node with currentEpochSuccesses := min (node.currentEpochSuccesses + 1) u32Max })
    leaderMissCounts := Function.update g.leaderMissCounts id 0 }

def noteValidatorFailure : RuntimeGovernance :=
  { g with state := g.state.modifyNode id (fun node =>
      { node with currentEpochFailures := min (node.currentEpochFailures + 1) u32Max }) }

def noteLeaderAbsence : RuntimeGovernance :=
  { g with leaderMissCounts := Function.update g.leaderMissCounts id (u32Add (g.leaderMissCounts id) 1) }

def suspend : RuntimeGovernance := { g with state := g.state.suspend id }

/-- Takes a penalty from an account into the treasury and suspends the node. After an error the changes
made so far stay. -/
def slash {σ : Type} (ops : LedgerOps σ) (penaltyOf : Nat → Nat) (g : RuntimeGovernance) (id : AccountId)
    (state : σ) : Except BalanceError (Option Nat) × RuntimeGovernance × σ :=
  match ops.get state id with
  | none => (.ok none, g.suspend id, state)
  | some account =>
    let penalty := penaltyOf account.balance
    if penalty = 0 then (.ok (some 0), g.suspend id, state)
    else
      match ops.debit state id penalty with
      | .error error => (.error error, g, state)
      | .ok debited =>
        let funded := ops.ensureAccount debited treasuryAccount
        match ops.credit funded treasuryAccount penalty with
        | .error error => (.error error, g, funded)
        | .ok credited => (.ok (some penalty), (g.suspend id).noteValidatorFailure id, credited)

variable (derive : Derivations)

def slashBuilder := slash (shardedOps derive) builderSlashAmount

def slashBuilderInTree := slash (treeOps derive) builderSlashAmount

def slashEquivocator := slash (shardedOps derive) equivocationSlashAmount

def admittedNode (candidate : AccountId) (blockTimestampMs : Nat) : NodeInfo where
  idCom := candidate
  status := .active
  registeredAtMs := blockTimestampMs
  activatedAtMs := blockTimestampMs
  affiliateCount := 0
  kycStatus := .approved
  kycExpiresAtMs := none
  naturalPerson := true
  standbyRank := none
  perfEmaBps := defaultPerfEmaBps
  currentEpochSuccesses := 0
  currentEpochFailures := 0

variable (devnetKey : AccountId → TaggedPubkey)

def checkAdmission (g : RuntimeGovernance) (sender candidate : AccountId)
    (signingPubkey : List UInt8) (fullSet : ValidatorSet) : Except AdmissionError TaggedPubkey :=
  match validateApproveValidatorSender g.founderIdCom sender with
  | .error error => .error error
  | .ok () =>
    if (g.state.nodeRegistry.getNode candidate).isSome then .error (.alreadyRegistered candidate)
    else if !g.state.nodeRegistry.hasCapacity then .error .atCapacity
    else
      match parseSigningPubkey signingPubkey with
      | .error error => .error error
      | .ok key =>
        let policy : Except AdmissionError Unit :=
          match g.validatorAdmissionPolicy with
          | .devnetDerived => if key ≠ devnetKey candidate then .error (.notDevnetKey candidate) else .ok ()
          | .founderProvided => .ok ()
          | .unsupported name => .error (.unsupportedPolicy name)
        match policy with
        | .error error => .error error
        | .ok () =>
          if fullSet.validators.any (fun existing => existing.signingPubkey = key) then .error .pubkeyTaken
          else .ok key

def admitValidator (g : RuntimeGovernance) (sender candidate : AccountId)
    (signingPubkey : List UInt8) (fullSet : ValidatorSet) (blockTimestampMs : Nat) :
    Except AdmissionError Validator × RuntimeGovernance × ValidatorSet :=
  match checkAdmission devnetKey g sender candidate signingPubkey fullSet with
  | .error error => (.error error, g, fullSet)
  | .ok key =>
    let validator : Validator :=
      ⟨candidate, approvedValidatorStake, fullSet.len, key, ⟨true, false, false⟩⟩
    match fullSet.addValidator validator with
    | .error error => (.error (.validatorSet error), g, fullSet)
    | .ok fullSet =>
      match g.state.nodeRegistry.registerNode (admittedNode candidate blockTimestampMs) with
      | .error error => (.error (.registry error), g, fullSet)
      | .ok registry =>
        (.ok validator, { g with state := { g.state with
          nodeRegistry := registry
          approvedValidators := g.state.approvedValidators ++ [validator] } }, fullSet)

def effectiveValidatorSet (fullSet : ValidatorSet) (nowMs : Nat) : ValidatorSet :=
  let eligible := (g.state.nodeRegistry.activeNodes.filter (fun node => node.isConsensusEligible nowMs)).map (·.idCom)
  fullSet.filtered (fun id => id ∈ eligible)

end RuntimeGovernance

end AceChain.Governance
