import AceChain.Governance.Admission
import AceChain.Node.Commit
import AceChain.Node.ExecutionRun

namespace AceChain.Node

open AceChain.Runtime Consensus Governance State RuntimeGovernance TransactionOp

def ids (validators : List Validator) : List AccountId := validators.map (·.idCom)

namespace Rules

variable (r : Rules)

def admits (blockTimeMs : Nat) (acc : RuntimeGovernance × ValidatorSet) (tx : Transaction) : Option Validator :=
  if !hasOpcode opApproveValidator tx then none
  else
    match decode r.machine.decodeOther tx.payload with
    | .ok (.approveValidator _ candidate signingPubkey) =>
      (acc.1.admitValidator r.devnetKey tx.sender candidate signingPubkey acc.2 blockTimeMs).1.toOption
    | _ => none

def Approves (tx : Transaction) (candidate : AccountId) : Prop :=
  ∃ nonce signingPubkey,
    decode r.machine.decodeOther tx.payload = .ok (.approveValidator nonce candidate signingPubkey)

variable {r} {time : Nat} {acc : RuntimeGovernance × ValidatorSet}

theorem admitTransaction_cases (r : Rules) (time : Nat) (acc : RuntimeGovernance × ValidatorSet) (tx : Transaction) :
    (r.admits time acc tx = none ∧ (r.admitTransaction time acc tx).2 = acc) ∨
      ∃ v, r.admits time acc tx = some v ∧ r.Approves tx v.idCom ∧
        Admitted acc.1 acc.2 tx.sender v.idCom time v (r.admitTransaction time acc tx).2.1
          (r.admitTransaction time acc tx).2.2 := by
  unfold admits admitTransaction
  split
  · exact .inl ⟨rfl, rfl⟩
  cases decoded : decode r.machine.decodeOther tx.payload with
  | error error => exact .inl ⟨rfl, rfl⟩
  | ok op =>
    cases op with
    | approveValidator nonce candidate signingPubkey =>
      dsimp only
      rcases acc.1.admitValidator_cases r.devnetKey tx.sender candidate signingPubkey acc.2 time with
        ⟨error, failed⟩ | ⟨v, g', fullSet', accepted, admitted⟩
      · rw [failed]
        exact .inl ⟨rfl, rfl⟩
      · rw [accepted]
        rw [← admitted.named] at decoded admitted
        exact .inr ⟨v, rfl, ⟨nonce, signingPubkey, decoded⟩, admitted⟩
    | transfer nonce recipient amount => exact .inl ⟨rfl, rfl⟩
    | createAccount idCom authPubkey => exact .inl ⟨rfl, rfl⟩
    | setAuthPubkey nonce authPubkey => exact .inl ⟨rfl, rfl⟩
    | addAuthKey nonce authPubkey => exact .inl ⟨rfl, rfl⟩
    | other opcode => exact .inl ⟨rfl, rfl⟩

theorem processBlockValidatorAdmissions_invariant {P : RuntimeGovernance → ValidatorSet → Prop}
    (keep : ∀ g fullSet sender v g' fullSet', Admitted g fullSet sender v.idCom time v g' fullSet' →
      P g fullSet → P g' fullSet')
    (txs : List Transaction) (start : P acc.1 acc.2) :
    P (r.processBlockValidatorAdmissions time acc txs).2.1 (r.processBlockValidatorAdmissions time acc txs).2.2 := by
  induction txs generalizing acc with
  | nil => exact start
  | cons tx txs ih =>
    have after : P (r.admitTransaction time acc tx).2.1 (r.admitTransaction time acc tx).2.2 := by
      rcases admitTransaction_cases r time acc tx with ⟨_, same⟩ | ⟨v, _, _, admitted⟩
      · rw [same]
        exact start
      · exact keep _ _ _ v _ _ admitted start
    exact ih after

end Rules

end AceChain.Node
