import AceChain.State.Sweep
import AceChain.Vm.TokenLedger

namespace AceChain.Vm

open AceChain.Runtime Engine State Lib SmallLedger

section

variable {derive : Derivations} {t : StateTree} {id : AccountId} {slot period : Nat}

theorem getStorage_of_storage {t' : StateTree} (same : t'.contractStorage[id]? = t.contractStorage[id]?) (key : Hash) :
    t'.getStorage id key = t.getStorage id key := by
  rw [getStorage_eq, getStorage_eq, same]

theorem getStorage_sweepExpired_dormant {a : Account} (found : t.get id = some a) (dormant : a.Dormant slot period)
    (key : Hash) :
    (t.sweepExpired derive slot period).getStorage id key = 0 := by
  rw [getStorage_eq, (sweepExpired_dormant derive slot period found dormant).2.1]
  rfl

end

/-- A sweep leaves every storage word, and with it every token balance, supply, allowance, order-book record and UTXO, as
it was if and only if no account it expires holds a word. -/
theorem sweep_keeps_storage_iff (derive : Derivations) (t : StateTree) (slot period : Nat) :
    (∀ id key, (t.sweepExpired derive slot period).getStorage id key = t.getStorage id key) ↔
      ∀ id a, t.get id = some a → a.Dormant slot period → ∀ key, t.getStorage id key = 0 := by
  constructor
  · intro kept id a found dormant key
    rw [← kept id key]
    exact getStorage_sweepExpired_dormant found dormant key
  · intro bare id key
    by_cases expires : ∃ a, t.get id = some a ∧ a.Dormant slot period
    · obtain ⟨a, found, dormant⟩ := expires
      rw [getStorage_sweepExpired_dormant found dormant key, bare id a found dormant key]
    · have awake : ∀ a, t.get id = some a → ¬a.Dormant slot period := by
        intro a found dormant
        exact expires ⟨a, found, dormant⟩
      exact getStorage_of_storage (sweepExpired_kept derive slot period awake).2.1 key

/-- The account of the token program has neither balance nor code: a sweep after an expiry period without a token call takes
the whole ledger with it. -/
theorem sweep_drops_token_ledger :
    let after := ledger.sweepExpired derive 100 50
    tokens.supplyOf ledger 5 = 100 ∧ tokens.tokenBalance ledger 5 ⟨1⟩ = 80 ∧
      tokens.allowanceOf ledger 5 ⟨2⟩ ⟨3⟩ = 10 ∧
      tokens.supplyOf after 5 = 0 ∧ tokens.tokenBalance after 5 ⟨1⟩ = 0 ∧
      tokens.allowanceOf after 5 ⟨2⟩ ⟨3⟩ = 0 := by
  decide +kernel

end AceChain.Vm
