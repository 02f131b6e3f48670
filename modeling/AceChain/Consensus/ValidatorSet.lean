import AceChain.Basic

namespace AceChain.Consensus

structure ValidatorCapabilities where
  evmCore : Bool
  btcPayments : Bool
  solanaLight : Bool
deriving DecidableEq

structure Validator where
  idCom : AccountId
  stake : Nat
  index : Nat
  signingPubkey : TaggedPubkey
  capabilities : ValidatorCapabilities
deriving DecidableEq

def minValidatorStake : Nat := 1

def stakes (validators : List Validator) : Nat := (validators.map (·.stake)).sum

structure ValidatorSet where
  validators : List Validator
  totalStake : Nat
  generation : Nat
deriving DecidableEq

inductive AddValidatorError where
  | insufficientStake (idCom : AccountId) (stake : Nat)
  | duplicateIdCom (idCom : AccountId)
  | duplicateIndex (index : Nat) (idCom : AccountId)
deriving DecidableEq

namespace ValidatorSet

variable (validators : List Validator)

def sortById : List Validator :=
  validators.insertionSort (fun a b => (compare a.idCom b.idCom).isLE = true)

def new : ValidatorSet :=
  let validators := sortById (validators.filter (fun v => minValidatorStake ≤ v.stake))
  ⟨validators, (validators.map (·.stake)).sum % 2 ^ 64, 0⟩

variable (s : ValidatorSet)

def len : Nat := s.validators.length

def isEmpty : Bool := s.validators.isEmpty

def getById (id : AccountId) : Option Validator :=
  s.validators.find? (fun v => v.idCom = id)

def filtered (allowed : AccountId → Bool) : ValidatorSet :=
  new (s.validators.filter (fun v => allowed v.idCom))

def addValidator (v : Validator) : Except AddValidatorError ValidatorSet :=
  if v.stake < minValidatorStake then .error (.insufficientStake v.idCom v.stake)
  else if s.validators.any (fun existing => existing.idCom = v.idCom) then .error (.duplicateIdCom v.idCom)
  else if s.validators.any (fun existing => existing.index = v.index) then
    .error (.duplicateIndex v.index v.idCom)
  else .ok { s with
    totalStake := u64Add s.totalStake v.stake
    validators := sortById (s.validators ++ [v]) }

/-- Structural difference, as `set_effective_validator_set` tests it before it bumps the generation. -/
def differs (a b : ValidatorSet) : Bool :=
  a.totalStake ≠ b.totalStake || a.validators ≠ b.validators

theorem addValidator_fresh {s s' : ValidatorSet} {v : Validator} (added : s.addValidator v = .ok s') :
    ∀ w ∈ s.validators, w.idCom ≠ v.idCom := by
  unfold addValidator at added
  split at added
  · cases added
  split at added <;> rename_i duplicate
  · cases added
  · intro w member same
    apply duplicate
    rw [List.any_eq_true]
    exact ⟨w, member, decide_eq_true same⟩

end ValidatorSet

end AceChain.Consensus
