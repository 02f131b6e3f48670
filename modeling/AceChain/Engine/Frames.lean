import AceChain.Engine.Writes
import AceChain.State.Frames

namespace AceChain.Engine

open State StateTree

variable {derive : Derivations} {ids : List AccountId} {t t' : StateTree} {id sender receiver : AccountId}

theorem frame_ensureAccount (member : id ∈ ids) : Frame ids t (ensureAccount derive t id) := by
  unfold ensureAccount
  by_cases known : t.contains id = true
  · rw [if_pos known]
    exact .refl ids t
  · rw [if_neg known]
    exact frame_insert member

theorem Writes.frame (writes : Writes derive (· ∈ ids) t t') : Frame ids t t' := by
  induction writes with
  | refl => exact .refl ids t
  | tail _ last ih =>
    refine ih.trans ?_
    cases last with
    | modify inside own => exact frame_modify _ inside
    | ensure inside hot => exact frame_ensureAccount inside
    | rewrite inside held own => exact frame_insert inside
    | replay => exact frame_of_eq rfl rfl

structure Payable (t : StateTree) (sender receiver : AccountId) (amount : Nat) (account : Account) : Prop where
  hot : t.isStubbed sender = false
  found : t.get sender = some account
  covered : amount ≤ account.balance
  countable : account.nonce + 1 ≤ u64Max
  open_ : t.isStubbed receiver = false

theorem payable_of_transfer {amount : Nat} {changes : List StateChange} (differ : sender ≠ receiver)
    (done : transfer derive t sender receiver amount none = (.ok changes, t')) :
    ∃ account, Payable t sender receiver amount account := by
  unfold transfer transferWithNoncePolicy at done
  split at done <;> rename_i cold
  · cases done
  split at done
  · cases done
  rename_i account found
  simp only [Option.filter_none] at done
  split at done <;> rename_i short
  · cases done
  split at done <;> rename_i closed
  · cases done
  refine ⟨account, ⟨Bool.eq_false_iff.mpr cold, found, Nat.le_of_not_lt short, ?_, Bool.eq_false_iff.mpr closed⟩⟩
  by_cases fits : account.nonce + 1 ≤ u64Max
  · exact fits
  have stuck : u64CheckedAdd account.nonce 1 = none := if_neg fits
  unfold moveBalance bumpNonce at done
  simp only [if_neg differ, if_true, stuck] at done
  split at done
  · cases done
  rename_i credited sum
  cases done

theorem transfer_creates (derive : Derivations) {amount : Nat} {account : Account} (differ : sender ≠ receiver)
    (payable : Payable t sender receiver amount account) (absent : t.get receiver = none) (small : amount ≤ u64Max) :
    ∃ changes t', transfer derive t sender receiver amount none = (.ok changes, t') ∧ t'.contains receiver = true := by
  have fresh : (ensureAccount derive t receiver).get receiver = some (Account.new receiver) := by
    rw [get_ensureAccount, if_pos rfl, absent]
    rfl
  have credited : u64CheckedAdd 0 amount = some amount := by
    unfold u64CheckedAdd
    rw [Nat.zero_add, if_pos small]
  have counted : ∀ t : StateTree, bumpNonce t sender account =
      (.ok (.nonceIncrement sender (account.nonce + 1)),
        t.modify sender (fun a => { a with nonce := account.nonce + 1 })) := by
    intro t
    unfold bumpNonce u64CheckedAdd
    rw [if_pos payable.countable]
  unfold transfer transferWithNoncePolicy moveBalance
  rw [payable.hot, payable.found, payable.open_, fresh]
  simp only [Bool.false_eq_true, if_false, Option.filter_none, if_neg (Nat.not_lt.mpr payable.covered), if_neg differ,
    Option.map_some, Option.getD_some, if_true, counted]
  rw [show (Account.new receiver).balance = 0 from rfl, credited]
  refine ⟨_, _, rfl, ?_⟩
  rw [contains_modify, contains_modify, contains_modify, contains_ensureAccount derive]

end AceChain.Engine
