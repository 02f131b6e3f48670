import AceChain.Consensus.Vote

namespace AceChain.Consensus

inductive RoundStep where
  | propose
  | prevote
  | precommit
  | commitWait
  | committed
deriving DecidableEq

def nilBlockHash : Hash := 0

inductive TendermintAction where
  | none
  | scheduleProposal (height round : Nat)
  | broadcastPrevote (height round : Nat) (blockHash : Hash)
  | broadcastPrecommit (height round : Nat) (blockHash : Hash)
  | commit (height round : Nat) (blockHash : Hash)
deriving DecidableEq

structure BufferedVote where
  voter : AccountId
  blockHash : Hash
  stake : Nat
  isPrecommit : Bool
deriving DecidableEq

structure TendermintState where
  height : Nat
  round : Nat
  step : RoundStep
  proposalHash : Option Hash
  proposalReceived : Bool
  lockedRound : Option Nat
  lockedHash : Option Hash
  validRound : Option Nat
  validHash : Option Hash
  prevotes : VoteCollector
  precommits : VoteCollector
  totalStake : Nat
  prevoted : Bool
  precommitted : Bool
  committedHash : Option Hash
  futureVotes : Nat → Option (List BufferedVote)
  pastQuorums : Nat → Hash → Bool

namespace TendermintState

def new (height totalStake : Nat) : TendermintState where
  height := height
  round := 0
  step := .propose
  proposalHash := none
  proposalReceived := false
  lockedRound := none
  lockedHash := none
  validRound := none
  validHash := none
  prevotes := .new height totalStake
  precommits := .new height totalStake
  totalStake := totalStake
  prevoted := false
  precommitted := false
  committedHash := none
  futureVotes := fun _ => none
  pastQuorums := fun _ _ => false

def newHeight (_ : TendermintState) (height totalStake : Nat) : TendermintState := new height totalStake

variable (s : TendermintState)

def newRound (round : Nat) : TendermintState :=
  { s with
    round := round
    step := .propose
    proposalHash := none
    proposalReceived := false
    prevotes := .new s.height s.totalStake
    precommits := .new s.height s.totalStake
    prevoted := false
    precommitted := false }

def doPrevote (blockHash : Hash) : TendermintAction × TendermintState :=
  if s.prevoted then (.none, s)
  else
    (.broadcastPrevote s.height s.round blockHash,
      { s with prevoted := true, step := if s.step = .propose then .prevote else s.step })

def doPrecommit (blockHash : Hash) : TendermintAction × TendermintState :=
  if s.precommitted then (.none, s)
  else (.broadcastPrecommit s.height s.round blockHash, { s with precommitted := true })

def prevoteChoice (blockHash : Hash) (validRound : Option Nat) : Hash :=
  match s.lockedHash with
  | some lockedHash =>
    if blockHash = lockedHash then blockHash
    else
      match validRound, s.lockedRound with
      | some vr, some lr =>
        if lr ≤ vr then
          if s.pastQuorums vr blockHash then blockHash else nilBlockHash
        else nilBlockHash
      | _, _ => nilBlockHash
  | none =>
    match validRound with
    | some vr => if s.pastQuorums vr blockHash then blockHash else nilBlockHash
    | none => blockHash

variable (height round : Nat)

def onProposal (blockHash : Hash) (validRound : Option Nat) :
    TendermintAction × TendermintState :=
  if height ≠ s.height ∨ round ≠ s.round then (.none, s)
  else if s.proposalReceived then (.none, s)
  else if s.step ≠ .propose then (.none, s)
  else
    let s := { s with proposalHash := some blockHash, proposalReceived := true }
    s.doPrevote (s.prevoteChoice blockHash validRound)

def buffer (round : Nat) (vote : BufferedVote) : TendermintState :=
  { s with futureVotes := Function.update s.futureVotes round (some ((s.futureVotes round).getD [] ++ [vote])) }

def prevoteProposal : TendermintAction × TendermintState :=
  if s.step = .propose ∧ s.proposalReceived ∧ ¬ s.prevoted then
    let hash := s.proposalHash.getD nilBlockHash
    match s.lockedHash with
    | some lockedHash => if hash ≠ lockedHash then s.doPrevote nilBlockHash else s.doPrevote hash
    | none => s.doPrevote hash
  else (.none, s)

def afterPrevote : TendermintAction × TendermintState :=
  match s.prevotes.quorumBlockHash with
  | some quorumHash =>
    if quorumHash ≠ nilBlockHash then
      let s := { s with
        pastQuorums := Function.update s.pastQuorums s.round (Function.update (s.pastQuorums s.round) quorumHash true)
        validRound := some s.round
        validHash := some quorumHash }
      if s.step = .prevote then
        { s with lockedRound := some s.round, lockedHash := some quorumHash, step := .precommit }.doPrecommit quorumHash
      else s.prevoteProposal
    else if s.step = .prevote then
      { s with step := .precommit }.doPrecommit nilBlockHash
    else s.prevoteProposal
  | none => s.prevoteProposal

def onPrevote (blockHash : Hash) (voter : AccountId) (stake : Nat) :
    TendermintAction × TendermintState :=
  if height ≠ s.height then (.none, s)
  else if s.round < round then (.none, s.buffer round ⟨voter, blockHash, stake, false⟩)
  else if round ≠ s.round then (.none, s)
  else if s.step = .committed ∨ s.step = .commitWait then (.none, s)
  else { s with prevotes := (s.prevotes.addVoteRaw voter blockHash stake).2 }.afterPrevote

def afterPrecommit : TendermintAction × TendermintState :=
  match s.precommits.quorumBlockHash with
  | some quorumHash =>
    if quorumHash ≠ nilBlockHash then
      (.commit s.height s.round quorumHash, { s with step := .commitWait, committedHash := some quorumHash })
    else (.none, s)
  | none => (.none, s)

def onPrecommit (blockHash : Hash) (voter : AccountId) (stake : Nat) :
    TendermintAction × TendermintState :=
  if height ≠ s.height then (.none, s)
  else if s.round < round then (.none, s.buffer round ⟨voter, blockHash, stake, true⟩)
  else if round ≠ s.round then (.none, s)
  else if s.step = .committed then (.none, s)
  else
    let counted := { s with precommits := (s.precommits.addVoteRaw voter blockHash stake).2 }
    if s.step = .commitWait then (.none, counted) else counted.afterPrecommit

def onProposeTimeout : TendermintAction × TendermintState :=
  if s.step ≠ .propose then (.none, s) else s.doPrevote nilBlockHash

def onPrevoteTimeout : TendermintAction × TendermintState :=
  if s.step ≠ .prevote then (.none, s) else { s with step := .precommit }.doPrecommit nilBlockHash

def onPrecommitTimeout : TendermintAction × TendermintState :=
  if s.step = .committed ∨ s.step = .commitWait then (.none, s)
  else
    let round := u32Add s.round 1
    (.scheduleProposal s.height round, s.newRound round)

def onCommitWaitTimeout : TendermintAction × TendermintState :=
  (.none, if s.step = .commitWait then { s with step := .committed } else s)

def forceCommit (blockHash : Hash) : TendermintState :=
  if height ≠ s.height then s
  else { s with round := round, step := .commitWait, committedHash := some blockHash }

def restoreLock (round : Nat) (hash : Hash) : TendermintState :=
  { s with lockedRound := some round, lockedHash := some hash }

def equivocators (voter : AccountId) : Option (Hash × Hash) :=
  match s.precommits.equivocators voter with
  | some hashes => some hashes
  | none => s.prevotes.equivocators voter

def replay (vote : BufferedVote) : TendermintAction × TendermintState :=
  if vote.isPrecommit then s.onPrecommit s.height s.round vote.blockHash vote.voter vote.stake
  else s.onPrevote s.height s.round vote.blockHash vote.voter vote.stake

def replayAll (s : TendermintState) : List BufferedVote → List TendermintAction × TendermintState
  | [] => ([], s)
  | vote :: votes =>
    let (action, s) := s.replay vote
    let (actions, s) := s.replayAll votes
    (if action ≠ .none then action :: actions else actions, s)

def drainBufferedVotes : List TendermintAction × TendermintState :=
  match s.futureVotes s.round with
  | none => ([], s)
  | some votes =>
    let kept := fun r => if r = s.round ∨ (0 < s.round ∧ r < s.round) then none else s.futureVotes r
    { s with futureVotes := kept }.replayAll votes

end TendermintState

end AceChain.Consensus
