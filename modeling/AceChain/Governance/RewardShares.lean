import AceChain.Governance.Rewards
import AceChain.Lib.Apportionment

namespace AceChain.Governance

open Lib Finset

namespace RewardEngine

variable (profiles : List RewardProfile)

def perfWeights : List Nat :=
  profiles.map (fun p => min (max p.perfWeightBps perfWeightFloorBps) perfWeightCeilBps)

def ageWeights : List Nat := profiles.map (·.ageWeightBps)

variable (totalReward : Nat)

def basePool : Nat := u64SatMul totalReward baseRewardBps / bpsDenominator

def perfPool : Nat := u64SatMul totalReward performanceRewardBps / bpsDenominator

def agePool : Nat := totalReward - basePool totalReward - perfPool totalReward

def rewards (epoch totalReward : Nat) (profiles : List RewardProfile) : List Nat :=
  distributeWeighted (agePool totalReward) (ageWeights profiles)
    (distributeWeighted (perfPool totalReward) (perfWeights profiles)
      (distributeEqual (basePool totalReward) (profiles.map (fun _ => 0)) epoch) epoch) epoch

def totalWeight (weights : List Nat) : Nat := min weights.sum u64Max

variable (amount : Nat)

def share (weights : List Nat) (i : Nat) : Nat := amount * weights.getD i 0 / totalWeight weights

def shares (weights : List Nat) : Nat := ∑ i ∈ range weights.length, share amount weights i

/-- The units a profile gets beyond its share. The turn is taken from a machine integer that may wrap. -/
def dust (weights : List Nat) (rotation i : Nat) : Nat :=
  if totalWeight weights = 0 then hits (fun k => (rotation + k) % weights.length) (amount % weights.length) i
  else hits (fun k => u64Add rotation k % weights.length) (amount - shares amount weights) i

/-- The weights add up within 64 bits, and so do the rotation and the units the shares leave over. -/
structure Regular (weights : List Nat) (rotation : Nat) : Prop where
  small : weights.sum ≤ u64Max
  turn : weights.sum ≠ 0 → rotation + (amount - shares amount weights) ≤ 2 ^ 64

variable (l : List Nat)

section Parts

variable {amount n rotation i : Nat} {weights : List Nat} {f : Nat → Nat}

end Parts

section Pools

variable {amount rotation n : Nat} {weights : List Nat} {f : Nat → Nat}

end Pools

section Distribution

variable {epoch totalReward i j : Nat} {profiles : List RewardProfile}

end Distribution

end RewardEngine

namespace SmallEpoch

open RewardEngine

def profiles : List RewardProfile := [⟨⟨1⟩, 10000, 1000⟩, ⟨⟨2⟩, 10000, 1000⟩, ⟨⟨1⟩, 9000, 0⟩]

end SmallEpoch

end AceChain.Governance
