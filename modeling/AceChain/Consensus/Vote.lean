import AceChain.Basic
import AceChain.Lib.Quorum

namespace AceChain.Consensus

open Lib Function

inductive VoteType where
  | prevote
  | precommit
deriving DecidableEq

structure Vote where
  slot : Nat
  blockHash : Hash
  voter : AccountId
  voterStake : Nat
  signature : TaggedSignature
  chainId : Nat
  round : Nat
  voteType : VoteType
deriving DecidableEq

structure VoteBucket where
  votes : List Vote
  votedStake : Nat

def VoteBucket.new : VoteBucket := ⟨[], 0⟩

/-- The votes of one slot by block hash. Maps that the code only looks up are functions. -/
structure VoteCollector where
  slot : Nat
  buckets : AList (fun _ : Hash => VoteBucket)
  totalStake : Nat
  voterFirstHash : AccountId → Option Hash
  equivocators : AccountId → Option (Hash × Hash)
  validatorSetGeneration : Nat

namespace VoteCollector

def new (slot totalStake : Nat) : VoteCollector where
  slot := slot
  buckets := ∅
  totalStake := totalStake
  voterFirstHash := fun _ => none
  equivocators := fun _ => none
  validatorSetGeneration := 0

variable (c : VoteCollector)

def votedStakeFor (blockHash : Hash) : Nat :=
  match c.buckets.lookup blockHash with
  | some bucket => bucket.votedStake
  | none => 0

def addVoteInternal (vote : Vote) (canonicalStake : Nat) : Bool × VoteCollector :=
  let vote := { vote with voterStake := canonicalStake }
  match c.voterFirstHash vote.voter with
  | some firstHash =>
    if firstHash ≠ vote.blockHash then
      (false, { c with
        equivocators := update c.equivocators vote.voter (some (firstHash, vote.blockHash)) })
    else (false, c)
  | none =>
    let bucket := (c.buckets.lookup vote.blockHash).getD VoteBucket.new
    let bucket := ⟨bucket.votes ++ [vote], u64Add bucket.votedStake vote.voterStake⟩
    (true, { c with
      buckets := c.buckets.insert vote.blockHash bucket
      voterFirstHash := update c.voterFirstHash vote.voter (some vote.blockHash) })

def addVoteRaw (voter : AccountId) (blockHash : Hash) (stake : Nat) : Bool × VoteCollector :=
  c.addVoteInternal
    { slot := c.slot, blockHash, voter, voterStake := stake
      signature := ⟨.ed25519, List.replicate 64 0⟩
      chainId := 0, round := 0, voteType := .prevote } stake

def quorumBlockHash : Option Hash :=
  if c.buckets.keys.length ≤ 1 then
    c.buckets.keys.find? (fun hash => hasQuorum (c.votedStakeFor hash) c.totalStake)
  else
    (c.buckets.keys.insertionSort (· ≤ ·)).find? (fun hash => hasQuorum (c.votedStakeFor hash) c.totalStake)

section

variable (slot totalStake : Nat)

@[simp] theorem new_totalStake : (new slot totalStake).totalStake = totalStake := rfl

@[simp] theorem new_voterFirstHash (voter : AccountId) :
    (new slot totalStake).voterFirstHash voter = none := rfl

@[simp] theorem new_equivocators (voter : AccountId) :
    (new slot totalStake).equivocators voter = none := rfl

@[simp] theorem new_votedStakeFor (hash : Hash) :
    (new slot totalStake).votedStakeFor hash = 0 := rfl

end

theorem quorumBlockHash_hasQuorum {c : VoteCollector} {hash : Hash} (quorum : c.quorumBlockHash = some hash) :
    hasQuorum (c.votedStakeFor hash) c.totalStake = true := by
  let reached := fun hash => hasQuorum (c.votedStakeFor hash) c.totalStake
  unfold quorumBlockHash at quorum
  split at quorum
  · exact List.find?_some (p := reached) quorum
  · exact List.find?_some (p := reached) quorum

section

variable (c : VoteCollector) (voter : AccountId)

@[simp] theorem addVoteRaw_totalStake (hash : Hash) (stake : Nat) :
    (c.addVoteRaw voter hash stake).2.totalStake = c.totalStake := by
  unfold addVoteRaw addVoteInternal
  dsimp only
  split
  · split <;> rfl
  · rfl

theorem addVoteRaw_voterFirstHash (hash : Hash) (stake : Nat) :
    (c.addVoteRaw voter hash stake).2.voterFirstHash =
      if c.voterFirstHash voter = none then update c.voterFirstHash voter (some hash)
      else c.voterFirstHash := by
  unfold addVoteRaw addVoteInternal
  dsimp only
  split <;> rename_i first
  · split <;> simp [first]
  · simp [first]

theorem addVoteRaw_equivocators (hash : Hash) (stake : Nat) :
    (c.addVoteRaw voter hash stake).2.equivocators = c.equivocators ∨
      ∃ first, c.voterFirstHash voter = some first ∧ first ≠ hash ∧
        (c.addVoteRaw voter hash stake).2.equivocators = update c.equivocators voter (some (first, hash)) := by
  unfold addVoteRaw addVoteInternal
  dsimp only
  split <;> rename_i first
  · split <;> rename_i different
    · exact .inr ⟨_, first, different, rfl⟩
    · exact .inl rfl
  · exact .inl rfl

theorem addVoteRaw_votedStakeFor (hash other : Hash) (stake : Nat) :
    (c.addVoteRaw voter hash stake).2.votedStakeFor other =
      if c.voterFirstHash voter = none ∧ other = hash then u64Add (c.votedStakeFor hash) stake
      else c.votedStakeFor other := by
  unfold addVoteRaw addVoteInternal
  dsimp only
  split <;> rename_i first
  · split <;> simp [first, votedStakeFor]
  · by_cases same : other = hash
    · subst same
      cases bucket : c.buckets.lookup other <;> simp [first, votedStakeFor, bucket, VoteBucket.new]
    · simp [same, votedStakeFor, AList.lookup_insert_ne same]

end

def Tallies (c : VoteCollector) (members : Finset AccountId) (stake : AccountId → Nat) : Prop :=
  ∀ hash, c.votedStakeFor hash = ∑ v ∈ members.filter (fun v => c.voterFirstHash v = some hash), stake v

theorem tallies_new (slot totalStake : Nat) (members : Finset AccountId) (stake : AccountId → Nat) :
    (new slot totalStake).Tallies members stake := by
  intro hash
  simp

theorem Tallies.addVoteRaw {c : VoteCollector} {members : Finset AccountId} {stake : AccountId → Nat}
    (tallies : c.Tallies members stake) (bound : ∑ v ∈ members, stake v < 2 ^ 64) {voter : AccountId}
    (member : voter ∈ members) (hash : Hash) :
    (c.addVoteRaw voter hash (stake voter)).2.Tallies members stake := by
  intro other
  rw [addVoteRaw_votedStakeFor, addVoteRaw_voterFirstHash]
  by_cases first : c.voterFirstHash voter = none
  · simp only [first, true_and, if_true]
    have outside : voter ∉ members.filter (fun v => c.voterFirstHash v = some other) := by
      simp [first]
    split <;> rename_i same
    · subst same
      have grown : members.filter (fun v => update c.voterFirstHash voter (some other) v = some other) =
          insert voter (members.filter (fun v => c.voterFirstHash v = some other)) := by
        ext v
        by_cases hv : v = voter
        · subst hv
          simp [member]
        · simp [hv]
      have inside : insert voter (members.filter (fun v => c.voterFirstHash v = some other)) ⊆ members :=
        Finset.insert_subset member (Finset.filter_subset _ _)
      have total := Finset.sum_le_sum_of_subset (f := stake) inside
      rw [Finset.sum_insert outside] at total
      rw [grown, Finset.sum_insert outside, tallies other, u64Add_of_lt _ _ (by omega), Nat.add_comm]
    · have unchanged : members.filter (fun v => update c.voterFirstHash voter (some hash) v = some other) =
          members.filter (fun v => c.voterFirstHash v = some other) := by
        ext v
        by_cases hv : v = voter
        · subst hv
          simp [first, Ne.symm same]
        · simp [update_of_ne hv]
      rw [unchanged, tallies other]
  · simp only [first, false_and, if_false]
    exact tallies other

end VoteCollector

end AceChain.Consensus
