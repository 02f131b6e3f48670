import AceChain.Basic

namespace AceChain.Governance

def blocksPerEpoch : Nat := 216000

def initialDailyReward : Nat := 100000 * 1000000000

def warmupTargetValidators : Nat := 1000

def targetDailyRewardPerValidator : Nat := initialDailyReward / warmupTargetValidators

def txFee : Nat := 20000

def halvingIntervalEpochs : Nat := 1461

def maxSupply : Nat := 1000000000 * 1000000000

def baseRewardBps : Nat := 7500

def performanceRewardBps : Nat := 1700

def bpsDenominator : Nat := 10000

def perfWeightFloorBps : Nat := 8500

def perfWeightCeilBps : Nat := 11500

def perfEmaPrevBps : Nat := 9000

def perfEmaCurBps : Nat := 1000

def ageCapMonths : Nat := 60

structure RewardProfile where
  validator : AccountId
  perfWeightBps : Nat
  ageWeightBps : Nat
deriving DecidableEq

structure EpochTracker where
  currentEpoch : Nat
  accumulatedFees : Nat
  totalMinted : Nat
  blocksInEpoch : Nat
  epochTxCount : Nat
  lastEpochTxCount : Nat
deriving DecidableEq

namespace EpochTracker

def new : EpochTracker := ⟨0, 0, 0, 0, 0, 0⟩

variable (t : EpochTracker)

def onBlock (txCount : Nat) : Option Nat × EpochTracker :=
  let t := { t with
    accumulatedFees := u64SatAdd t.accumulatedFees (u64SatMul txCount txFee)
    epochTxCount := u64SatAdd t.epochTxCount txCount
    blocksInEpoch := u64Add t.blocksInEpoch 1 }
  if blocksPerEpoch ≤ t.blocksInEpoch then
    (some t.currentEpoch, { t with
      lastEpochTxCount := t.epochTxCount
      currentEpoch := u64Add t.currentEpoch 1
      blocksInEpoch := 0
      epochTxCount := 0 })
  else (none, t)

def takeFees : Nat × EpochTracker := (t.accumulatedFees, { t with accumulatedFees := 0 })

def recordMint (amount : Nat) : EpochTracker :=
  { t with totalMinted := u64SatAdd t.totalMinted amount }

end EpochTracker

namespace RewardEngine

def epochRewardPool (epoch totalMinted activeValidatorCount : Nat) : Nat :=
  if activeValidatorCount = 0 then 0
  else
    let halvings := epoch / halvingIntervalEpochs
    if 20 ≤ halvings then 0
    else
      let warmup := u64SatMul (min activeValidatorCount warmupTargetValidators) targetDailyRewardPerValidator
      min (warmup / 2 ^ halvings) (maxSupply - totalMinted)

/-- Rotation by the epoch decides who gets the units that do not divide. -/
def distributeEqual (amount : Nat) (outputs : List Nat) (rotation : Nat) : List Nat :=
  if outputs.isEmpty || amount = 0 then outputs
  else
    let count := outputs.length
    outputs.mapIdx (fun i output =>
      let extra := if (i + count - rotation % count) % count < amount % count then 1 else 0
      u64SatAdd output (amount / count + extra))

def distributeWeighted (amount : Nat) (weights outputs : List Nat) (rotation : Nat) : List Nat :=
  if outputs.isEmpty || amount = 0 then outputs
  else
    let totalWeight := weights.foldl u64SatAdd 0
    if totalWeight = 0 then distributeEqual amount outputs rotation
    else
      let shares := weights.map (fun weight => amount * weight / totalWeight % 2 ^ 64)
      let outputs := (outputs.zip shares).map (fun pair => u64SatAdd pair.1 pair.2)
      let count := outputs.length
      let remainder := amount - shares.foldl u64SatAdd 0
      (List.range (min remainder count)).foldl
        (fun outputs j => outputs.modify (u64Add rotation j % count) (u64SatAdd · 1)) outputs

def distribute (epoch totalMinted accumulatedFees : Nat) (profiles : List RewardProfile) :
    List (AccountId × Nat) :=
  if profiles.isEmpty then []
  else
    let blockReward := epochRewardPool epoch totalMinted profiles.length
    let totalReward := u64SatAdd blockReward accumulatedFees
    if totalReward = 0 then []
    else
      let basePool := u64SatMul totalReward baseRewardBps / bpsDenominator
      let perfPool := u64SatMul totalReward performanceRewardBps / bpsDenominator
      let agePool := totalReward - basePool - perfPool
      let rewards := distributeEqual basePool (profiles.map (fun _ => 0)) epoch
      let perfWeights := profiles.map (fun p => min (max p.perfWeightBps perfWeightFloorBps) perfWeightCeilBps)
      let rewards := distributeWeighted perfPool perfWeights rewards epoch
      let rewards := distributeWeighted agePool (profiles.map (·.ageWeightBps)) rewards epoch
      ((profiles.zip rewards).filter (fun pair => 0 < pair.2)).map (fun pair => (pair.1.validator, pair.2))

end RewardEngine

def targetAvgTxsPerNode : Nat := 2000000

def expansionThresholdBps : Nat := 12000

def maxExpansionRateBps : Nat := 2000

def minExpansionSlots : Nat := 1

def maxExpansionSlots : Nat := 100

def loadEmaPrevBps : Nat := 7000

def loadEmaCurBps : Nat := 3000

def hardCapActiveNodes : Nat := 10000

structure AdmissionController where
  loadEmaBps : Nat
  activeTarget : Nat
  totalSlotsReleased : Nat
  lastAdjustmentEpoch : Nat
deriving DecidableEq

namespace AdmissionController

def new (initialActiveTarget : Nat) : AdmissionController :=
  ⟨bpsDenominator, min initialActiveTarget hardCapActiveNodes, 0, 0⟩

def onEpochBoundary (c : AdmissionController) (epoch epochTotalTxs activeNodeCount : Nat) :
    Nat × AdmissionController :=
  if activeNodeCount = 0 then (0, c)
  else
    let currentLoad := u64SatMul (epochTotalTxs / activeNodeCount) bpsDenominator / targetAvgTxsPerNode
    let ema := u64SatAdd (u64SatMul c.loadEmaBps loadEmaPrevBps) (u64SatMul currentLoad loadEmaCurBps)
    let c := { c with loadEmaBps := ema / bpsDenominator, lastAdjustmentEpoch := epoch }
    if expansionThresholdBps < c.loadEmaBps ∧ c.activeTarget < hardCapActiveNodes then
      let excess := c.loadEmaBps - bpsDenominator
      let raw := u64SatMul activeNodeCount excess / bpsDenominator
      let maxRate := u64SatMul activeNodeCount maxExpansionRateBps / bpsDenominator
      let expansion := min (max (min raw maxRate) minExpansionSlots) maxExpansionSlots
      let target := min (min (c.activeTarget + expansion) u32Max) hardCapActiveNodes
      let released := target - c.activeTarget
      (released, { c with
        activeTarget := target
        totalSlotsReleased := min (c.totalSlotsReleased + released) u32Max })
    else (0, c)

end AdmissionController

structure AffiliateInfo where
  idCom : AccountId
  operator : AccountId
  registeredAtMs : Nat
  active : Bool
deriving DecidableEq

def billingPeriodMs : Nat := 30 * 24 * 60 * 60 * 1000

structure AffiliateRegistry where
  affiliatesByOperator : Std.TreeMap AccountId (Std.TreeSet AccountId)
  affiliateInfo : Std.TreeMap AccountId AffiliateInfo
  feePerMonth : Nat

namespace AffiliateRegistry

def empty (feePerMonth : Nat) : AffiliateRegistry := ⟨∅, ∅, feePerMonth⟩

variable (r : AffiliateRegistry)

/-- An unknown affiliate is left alone: the caller drops the `NotFound` error. -/
def deactivate (affiliate : AccountId) : AffiliateRegistry :=
  { r with affiliateInfo := r.affiliateInfo.modify affiliate (fun info => { info with active := false }) }

def getAffiliates (operator : AccountId) : List AffiliateInfo :=
  match r.affiliatesByOperator[operator]? with
  | some members => members.toList.filterMap (fun id => r.affiliateInfo[id]?)
  | none => []

def activeAffiliateCount (operator : AccountId) : Nat :=
  ((r.getAffiliates operator).filter (·.active)).length

def calculateAffiliateFeeForWindow (affiliate : AffiliateInfo)
    (windowStartMs windowEndMs : Nat) : Nat :=
  if !affiliate.active || windowEndMs ≤ windowStartMs then 0
  else
    let activeStart := max affiliate.registeredAtMs windowStartMs
    if windowEndMs ≤ activeStart then 0
    else r.feePerMonth * (windowEndMs - activeStart) / billingPeriodMs % 2 ^ 64

end AffiliateRegistry

end AceChain.Governance
