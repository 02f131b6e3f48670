import AceChain.Engine.Writes

namespace AceChain.Engine

open AceChain.Runtime State StateTree

variable {derive : Derivations} {t t' t'' : StateTree} {id : AccountId}

namespace Operations

variable (o : Operations)

def createdId : TransactionOp → Option AccountId
  | .createAccount idCom _ => some idCom
  | _ => none

def revives (t : StateTree) (tx : Transaction) : Bool :=
  match TransactionOp.decode decodeOther tx.payload with
  | .error _ => false
  | .ok op => (createdId op).any t.isStubbed && (o.externals.executeTransaction t tx).1.isOk

variable {o} {tx : Transaction}

theorem createAccount_cases (derive : Derivations) (t : StateTree) (sender id : AccountId) (key : TaggedPubkey) :
    (∃ error, createAccount derive t sender id key = (.error error, t)) ∨
      (id = sender ∧ t.contains id = false ∧ createAccount derive t sender id key =
        (.ok [.accountCreated id], t.insert derive { Account.new id with authPubkey := key })) := by
  unfold createAccount
  by_cases own : id = sender
  · rw [if_neg (not_not_intro own)]
    cases known : t.contains id with
    | true => exact .inl ⟨_, rfl⟩
    | false => exact .inr ⟨own, rfl, rfl⟩
  · rw [if_pos own]
    exact .inl ⟨_, rfl⟩

theorem revives_of_decode {op : TransactionOp} (decoded : TransactionOp.decode decodeOther tx.payload = .ok op) :
    o.revives t tx = ((createdId op).any t.isStubbed && (o.externals.executeTransaction t tx).1.isOk) := by
  unfold revives
  rw [decoded]

theorem executeTransaction_keepsCold (apart : TiersApart t) (kept : o.revives t tx = false) :
    KeepsCold t (o.externals.executeTransaction t tx).2 := by
  rcases o.externals.executeTransaction_cases t tx with ⟨error, refused⟩ | ⟨op, decoded, -, done⟩
  · rw [refused]
    exact .refl t
  rcases done with ⟨nonce, receiver, amount, -, done⟩ | ⟨-, -, done⟩
  · rw [done]
    exact (executeTransfer_performs (P := fun _ => True)
      o.externals t tx nonce receiver amount trivial trivial).writes.keepsCold apart
  rw [revives_of_decode decoded, done] at kept
  rw [done]
  cases op with
  | createAccount id key =>
    change (t.isStubbed id && (createAccount o.derive t tx.sender id key).1.isOk) = false at kept
    change KeepsCold t (createAccount o.derive t tx.sender id key).2
    rcases createAccount_cases o.derive t tx.sender id key with ⟨error, refused⟩ | ⟨-, -, created⟩
    · rw [refused]
      exact .refl t
    · rw [created] at kept
      rw [created]
      exact keepsCold_insert ((Bool.and_true _).symm.trans kept)
  | _ => exact (executeOther_performs o t tx (fun _ _ same => by cases same)).writes.keepsCold apart

theorem executeTransaction_revives (revived : o.revives t tx = true) :
    ∃ id, t.isStubbed id = true ∧ (o.externals.executeTransaction t tx).2.contains id = true := by
  rcases o.externals.executeTransaction_cases t tx with ⟨error, refused⟩ | ⟨op, decoded, -, done⟩
  · unfold revives at revived
    split at revived
    · cases revived
    · rw [refused, Bool.and_eq_true] at revived
      cases revived.2
  · rw [revives_of_decode decoded] at revived
    cases op with
    | createAccount id key =>
      rcases done with ⟨nonce, receiver, amount, wrong, -⟩ | ⟨-, -, done⟩
      · cases wrong
      rw [done, Bool.and_eq_true] at revived
      refine ⟨id, revived.1, ?_⟩
      have succeeded : (createAccount o.derive t tx.sender id key).1.isOk = true := revived.2
      rw [done]
      change (createAccount o.derive t tx.sender id key).2.contains id = true
      rcases createAccount_cases o.derive t tx.sender id key with ⟨error, refused⟩ | ⟨-, -, created⟩
      · rw [refused] at succeeded
        cases succeeded
      · rw [created, contains_insert]
        exact (congrArg (· || t.contains id) (decide_eq_true rfl)).trans (Bool.true_or _)
    | _ => cases revived

end Operations

end AceChain.Engine
