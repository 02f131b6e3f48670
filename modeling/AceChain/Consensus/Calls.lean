import AceChain.Consensus.Locking
import AceChain.Lib.Runs

namespace AceChain.Consensus

inductive Call where
  | onProposal (height round : Nat) (blockHash : Hash) (validRound : Option Nat)
  | onPrevote (height round : Nat) (blockHash : Hash) (voter : AccountId) (stake : Nat)
  | onPrecommit (height round : Nat) (blockHash : Hash) (voter : AccountId) (stake : Nat)
  | onProposeTimeout
  | onPrevoteTimeout
  | onPrecommitTimeout
  | onCommitWaitTimeout
  | drainBufferedVotes
  | newRound (round : Nat)
  | newHeight (height totalStake : Nat)
  | forceCommit (height round : Nat) (blockHash : Hash)
  | restoreLock (round : Nat) (blockHash : Hash)
deriving DecidableEq

namespace TendermintState

def single (result : TendermintAction × TendermintState) : List TendermintAction × TendermintState :=
  ([result.1], result.2)

variable (s : TendermintState)

def call : Call → List TendermintAction × TendermintState
  | .onProposal height round hash validRound => single (s.onProposal height round hash validRound)
  | .onPrevote height round hash voter stake => single (s.onPrevote height round hash voter stake)
  | .onPrecommit height round hash voter stake => single (s.onPrecommit height round hash voter stake)
  | .onProposeTimeout => single s.onProposeTimeout
  | .onPrevoteTimeout => single s.onPrevoteTimeout
  | .onPrecommitTimeout => single s.onPrecommitTimeout
  | .onCommitWaitTimeout => single s.onCommitWaitTimeout
  | .drainBufferedVotes => s.drainBufferedVotes
  | .newRound round => ([], s.newRound round)
  | .newHeight height totalStake => ([], s.newHeight height totalStake)
  | .forceCommit height round hash => ([], s.forceCommit height round hash)
  | .restoreLock round hash => ([], s.restoreLock round hash)

def calls (cs : List Call) : TendermintState := Lib.run (fun s c => (s.call c).2) s cs

def AllMeet (ok : TendermintState → Call → Prop) (s : TendermintState) (cs : List Call) : Prop :=
  Lib.Meets (fun s c => (s.call c).2) ok s cs

instance (ok : TendermintState → Call → Prop) [∀ s c, Decidable (ok s c)] (s : TendermintState) (cs : List Call) :
    Decidable (AllMeet ok s cs) := Lib.decidableMeets _ ok s cs

theorem calls_cons (c : Call) (cs : List Call) : s.calls (c :: cs) = (s.call c).2.calls cs := rfl

end TendermintState

def Call.vote : Call → Option (AccountId × CastVote)
  | .onPrevote height round hash voter _ => some (voter, ⟨height, round, .prevote, hash⟩)
  | .onPrecommit height round hash voter _ => some (voter, ⟨height, round, .precommit, hash⟩)
  | _ => none

namespace TendermintState

variable (s : TendermintState)

theorem onPrevote_here (hash : Hash) (voter : AccountId) (stake : Nat)
    (running : ¬ (s.step = .committed ∨ s.step = .commitWait)) :
    s.onPrevote s.height s.round hash voter stake =
      { s with prevotes := (s.prevotes.addVoteRaw voter hash stake).2 }.afterPrevote := by
  simp [onPrevote, running]

theorem onPrecommit_here (hash : Hash) (voter : AccountId) (stake : Nat)
    (running : ¬ (s.step = .committed ∨ s.step = .commitWait)) :
    s.onPrecommit s.height s.round hash voter stake =
      { s with precommits := (s.precommits.addVoteRaw voter hash stake).2 }.afterPrecommit := by
  rw [not_or] at running
  simp [onPrecommit, running]

theorem replay_position (vote : BufferedVote) :
    (s.replay vote).2.height = s.height ∧ (s.replay vote).2.round = s.round := by
  unfold replay
  split
  · exact (onPrecommit_takes s _ _ _ _ _).position
  · exact (onPrevote_takes s _ _ _ _ _).position

def dropBuffered : TendermintState :=
  { s with futureVotes := fun r => if r = s.round ∨ (0 < s.round ∧ r < s.round) then none else s.futureVotes r }

theorem drainBufferedVotes_eq :
    s.drainBufferedVotes = match s.futureVotes s.round with
      | none => ([], s)
      | some votes => s.dropBuffered.replayAll votes := rfl

theorem Holds.dropBuffered {s : TendermintState} {forced : Prop}
    {cast : VoteType → Nat → AccountId → Hash → Nat → Prop} (holds : s.Holds forced cast) :
    s.dropBuffered.Holds forced cast where
  prevotes := holds.prevotes
  precommits := holds.precommits
  buffered := by
    intro r votes found
    simp only [TendermintState.dropBuffered] at found
    split at found
    · cases found
    · exact holds.buffered r votes found

end TendermintState

end AceChain.Consensus
