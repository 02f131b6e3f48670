import AceChain.Governance.Runtime
import AceChain.Lib.Folds

namespace AceChain.Governance

open Consensus State NodeRegistry

namespace GovernanceState

theorem approvedValidators_rollEpochPerformance (g : GovernanceState) (nowMs : Nat) :
    (g.rollEpochPerformance nowMs).approvedValidators = g.approvedValidators := by
  apply List.foldlRecOn (motive := fun after : GovernanceState => after.approvedValidators = g.approvedValidators)
  · rfl
  · intro after same node _
    exact same

theorem approvedValidators_syncAffiliateCounts {g g' : GovernanceState} (synced : g.syncAffiliateCounts = .ok g') :
    g'.approvedValidators = g.approvedValidators := by
  apply Lib.foldlM_ok_invariant (P := fun after => after.approvedValidators = g.approvedValidators) _ rfl synced
  intro after node _ after' same counted
  cases set : after.nodeRegistry.setAffiliateCount node.idCom (after.affiliateRegistry.activeAffiliateCount node.idCom) with
  | error error =>
    rw [set] at counted
    cases counted
  | ok registry =>
    rw [set] at counted
    cases counted
    exact same

end GovernanceState

namespace RuntimeGovernance

variable {derive : Derivations} {state state' : ShardedState}

theorem approvedValidators_settleAffiliate {operator : AccountId} {startMs endMs : Nat} {g g' : GovernanceState}
    {affiliate : AffiliateInfo}
    (settled : settleAffiliate derive operator startMs endMs (g, state) affiliate = .ok (g', state')) :
    g'.approvedValidators = g.approvedValidators := by
  unfold settleAffiliate at settled
  dsimp only at settled
  split at settled
  · cases settled
    rfl
  split at settled
  · cases settled
    rfl
  split at settled
  · cases debited : debitBalance derive state affiliate.idCom
      (min (g.affiliateRegistry.calculateAffiliateFeeForWindow affiliate startMs endMs)
        (((state.get affiliate.idCom).map (·.balance)).getD 0)) with
    | error error =>
      rw [debited] at settled
      cases settled
    | ok paid =>
      rw [debited] at settled
      cases credited : creditBalance derive paid operator
        (min (g.affiliateRegistry.calculateAffiliateFeeForWindow affiliate startMs endMs)
          (((state.get affiliate.idCom).map (·.balance)).getD 0)) with
      | error error =>
        simp only [bind, Except.bind, credited] at settled
        cases settled
      | ok funded =>
        simp only [bind, Except.bind, credited, pure, Except.pure] at settled
        cases settled
        split <;> rfl
  · cases settled
    split <;> rfl

theorem approvedValidators_settleAffiliateFees {startMs endMs : Nat} {g g' : GovernanceState}
    (settled : settleAffiliateFees derive g state startMs endMs = .ok (g', state')) :
    g'.approvedValidators = g.approvedValidators := by
  apply Lib.foldlM_ok_invariant (P := fun after => after.1.approvedValidators = g.approvedValidators) _ rfl settled
  intro after operator _ after' same charged
  apply Lib.foldlM_ok_invariant (P := fun after => after.1.approvedValidators = g.approvedValidators) _ same charged
  intro before affiliate _ before' kept paid
  exact (approvedValidators_settleAffiliate paid).trans kept

theorem approvedValidators_settleRewards {g g' : GovernanceState}
    {validatorSet : ValidatorSet} {completedEpoch endMs : Nat}
    (settled : settleRewards derive g state validatorSet completedEpoch endMs = .ok (g', state')) :
    g'.approvedValidators = g.approvedValidators := by
  unfold settleRewards at settled
  dsimp only at settled
  split at settled
  · cases settled
    rfl
  split at settled
  · cases settled
  · cases settled
    rfl

theorem applyCompletedBlock_keeps {gov gov' : RuntimeGovernance}
    {validatorSet : ValidatorSet} {charged time : Nat}
    (settled : gov.applyCompletedBlock derive state validatorSet charged time = .ok (gov', state')) :
    gov' = { gov with state := gov'.state } ∧ gov'.approvedValidators = gov.approvedValidators := by
  unfold applyCompletedBlock at settled
  dsimp only at settled
  split at settled
  · cases settled
    exact ⟨rfl, rfl⟩
  split at settled <;> rename_i rewarded
  · cases settled
  split at settled <;> rename_i collected
  · cases settled
  split at settled <;> rename_i counted
  · cases settled
  cases settled
  apply And.intro rfl
  unfold approvedValidators adjustAdmission
  dsimp only
  have kept := GovernanceState.approvedValidators_syncAffiliateCounts counted
  rw [approvedValidators_settleAffiliateFees collected, approvedValidators_settleRewards rewarded,
    GovernanceState.approvedValidators_rollEpochPerformance] at kept
  split <;> exact kept

variable (g : RuntimeGovernance)

def writeAdmission (v : Validator) (time : Nat) : RuntimeGovernance :=
  { g with state := { g.state with
    nodeRegistry :=
      { g.state.nodeRegistry with nodes := g.state.nodeRegistry.nodes.insert v.idCom (admittedNode v.idCom time) }
    approvedValidators := g.state.approvedValidators ++ [v] } }

theorem getNode_writeAdmission (v : Validator) (time : Nat) (id : AccountId) :
    (g.writeAdmission v time).state.nodeRegistry.getNode id =
      if id = v.idCom then some (admittedNode v.idCom time) else g.state.nodeRegistry.getNode id := by
  unfold writeAdmission getNode
  simp only [Std.TreeMap.getElem?_insert, Std.LawfulEqCmp.compare_eq_iff_eq, @eq_comm AccountId v.idCom]

structure Admitted (g : RuntimeGovernance) (fullSet : ValidatorSet) (sender candidate : AccountId) (time : Nat)
    (v : Validator) (g' : RuntimeGovernance) (fullSet' : ValidatorSet) : Prop where
  founder : g.founderIdCom = some sender
  named : v.idCom = candidate
  unregistered : g.state.nodeRegistry.getNode candidate = none
  added : fullSet.addValidator v = .ok fullSet'
  written : g' = g.writeAdmission v time

variable {devnetKey : AccountId → TaggedPubkey} {g : RuntimeGovernance} {sender candidate : AccountId}
  {signingPubkey : List UInt8} {fullSet : ValidatorSet} {time : Nat}

theorem checkAdmission_ok {key : TaggedPubkey}
    (checked : checkAdmission devnetKey g sender candidate signingPubkey fullSet = .ok key) :
    g.founderIdCom = some sender ∧ g.state.nodeRegistry.getNode candidate = none ∧
      g.state.nodeRegistry.hasCapacity = true := by
  unfold checkAdmission at checked
  split at checked <;> rename_i validated
  · cases checked
  split at checked <;> rename_i registered
  · cases checked
  split at checked <;> rename_i capacity
  · cases checked
  rw [Bool.not_eq_true', Bool.not_eq_false] at capacity
  rw [Option.isSome_iff_ne_none, Decidable.not_not] at registered
  apply And.intro _ ⟨registered, capacity⟩
  unfold validateApproveValidatorSender at validated
  split at validated <;> rename_i founder
  · cases validated
  split at validated <;> rename_i same
  · cases validated
  · rw [Decidable.not_not] at same
    rw [same, founder]

variable (devnetKey : AccountId → TaggedPubkey)

/-- The late errors of the registry cannot occur: an admission that passes its checks and enters the validator set
is accepted. -/
theorem admitValidator_eq (g : RuntimeGovernance) (sender candidate : AccountId)
    (signingPubkey : List UInt8) (fullSet : ValidatorSet) (time : Nat) :
    g.admitValidator devnetKey sender candidate signingPubkey fullSet time =
      match checkAdmission devnetKey g sender candidate signingPubkey fullSet with
      | .error error => (.error error, g, fullSet)
      | .ok key =>
        let v : Validator := ⟨candidate, approvedValidatorStake, fullSet.len, key, ⟨true, false, false⟩⟩
        match fullSet.addValidator v with
        | .error error => (.error (.validatorSet error), g, fullSet)
        | .ok fullSet => (.ok v, g.writeAdmission v time, fullSet) := by
  unfold admitValidator
  cases checked : checkAdmission devnetKey g sender candidate signingPubkey fullSet with
  | error error => rfl
  | ok key =>
    obtain ⟨_, unregistered, capacity⟩ := checkAdmission_ok checked
    have registered : g.state.nodeRegistry.registerNode (admittedNode candidate time) =
        .ok { g.state.nodeRegistry with
          nodes := g.state.nodeRegistry.nodes.insert candidate (admittedNode candidate time) } := by
      unfold registerNode
      have fresh : g.state.nodeRegistry.getNode (admittedNode candidate time).idCom = none := unregistered
      rw [fresh, capacity]
      rfl
    rw [registered]
    rfl

theorem admitValidator_cases (g : RuntimeGovernance) (sender candidate : AccountId)
    (signingPubkey : List UInt8) (fullSet : ValidatorSet) (time : Nat) :
    (∃ error, g.admitValidator devnetKey sender candidate signingPubkey fullSet time = (.error error, g, fullSet)) ∨
      ∃ v g' fullSet', g.admitValidator devnetKey sender candidate signingPubkey fullSet time = (.ok v, g', fullSet') ∧
        Admitted g fullSet sender candidate time v g' fullSet' := by
  rw [admitValidator_eq]
  cases checked : checkAdmission devnetKey g sender candidate signingPubkey fullSet with
  | error error => exact .inl ⟨error, rfl⟩
  | ok key =>
    obtain ⟨founder, unregistered, _⟩ := checkAdmission_ok checked
    dsimp only
    split <;> rename_i added
    · exact .inl ⟨_, rfl⟩
    · exact .inr ⟨_, _, _, rfl, founder, rfl, unregistered, added, rfl⟩

end RuntimeGovernance

structure GovernanceState.Same (a b : GovernanceState) : Prop where
  epochTracker : a.epochTracker = b.epochTracker
  getNode : ∀ id, a.nodeRegistry.getNode id = b.nodeRegistry.getNode id
  maxNodes : a.nodeRegistry.maxNodes = b.nodeRegistry.maxNodes
  affiliateRegistry : a.affiliateRegistry = b.affiliateRegistry
  admissionController : a.admissionController = b.admissionController
  approvedValidators : a.approvedValidators = b.approvedValidators

structure RuntimeGovernance.Same (a b : RuntimeGovernance) : Prop where
  state : a.state.Same b.state
  leaderMissCounts : a.leaderMissCounts = b.leaderMissCounts
  founderIdCom : a.founderIdCom = b.founderIdCom
  validatorAdmissionPolicy : a.validatorAdmissionPolicy = b.validatorAdmissionPolicy

theorem GovernanceState.Same.refl (a : GovernanceState) : a.Same a := ⟨rfl, fun _ => rfl, rfl, rfl, rfl, rfl⟩

theorem GovernanceState.Same.hasCapacity {a b : GovernanceState} (same : a.Same b) :
    a.nodeRegistry.hasCapacity = b.nodeRegistry.hasCapacity := by
  have nodes : a.nodeRegistry.nodes.Equiv b.nodeRegistry.nodes := .of_forall_constGet?_eq same.getNode
  have values : a.nodeRegistry.nodes.values = b.nodeRegistry.nodes.values := nodes.1.values_eq
  unfold NodeRegistry.hasCapacity NodeRegistry.nodeCount
  rw [values, same.maxNodes]

namespace RuntimeGovernance

variable {devnetKey : AccountId → TaggedPubkey} {a b : RuntimeGovernance} {sender candidate : AccountId}
  {signingPubkey : List UInt8} {fullSet : ValidatorSet} {time : Nat}

theorem Same.checkAdmission (same : a.Same b) :
    checkAdmission devnetKey a sender candidate signingPubkey fullSet =
      checkAdmission devnetKey b sender candidate signingPubkey fullSet := by
  unfold RuntimeGovernance.checkAdmission
  rw [same.founderIdCom, same.state.getNode, same.state.hasCapacity, same.validatorAdmissionPolicy]

theorem Same.writeAdmission (same : a.Same b) (v : Validator) (time : Nat) :
    (a.writeAdmission v time).Same (b.writeAdmission v time) where
  state :=
    { epochTracker := same.state.epochTracker
      getNode := by
        intro id
        rw [getNode_writeAdmission, getNode_writeAdmission, same.state.getNode]
      maxNodes := same.state.maxNodes
      affiliateRegistry := same.state.affiliateRegistry
      admissionController := same.state.admissionController
      approvedValidators := congrArg (· ++ [v]) same.state.approvedValidators }
  leaderMissCounts := same.leaderMissCounts
  founderIdCom := same.founderIdCom
  validatorAdmissionPolicy := same.validatorAdmissionPolicy

theorem Same.admitValidator (same : a.Same b) (devnetKey : AccountId → TaggedPubkey) (sender candidate : AccountId)
    (signingPubkey : List UInt8) (fullSet : ValidatorSet) (time : Nat) :
    let left := a.admitValidator devnetKey sender candidate signingPubkey fullSet time
    let right := b.admitValidator devnetKey sender candidate signingPubkey fullSet time
    left.1 = right.1 ∧ left.2.2 = right.2.2 ∧ left.2.1.Same right.2.1 := by
  rw [admitValidator_eq, admitValidator_eq, same.checkAdmission]
  cases RuntimeGovernance.checkAdmission devnetKey b sender candidate signingPubkey fullSet with
  | error error => exact ⟨rfl, rfl, same⟩
  | ok key =>
    dsimp only
    split
    · exact ⟨rfl, rfl, same⟩
    · exact ⟨rfl, rfl, same.writeAdmission _ _⟩

end RuntimeGovernance

end AceChain.Governance
