import AceChain.Consensus.Wal

namespace AceChain.Node

open Consensus

inductive Observation where
  | sent (vote : CastVote)
  | quorum (height round : Nat) (blockHash : Hash)
deriving DecidableEq

/-- What the running handler of the consensus loop still has to do; a crash can fall between any two tasks. -/
inductive Task where
  | send (vote : CastVote)
  | log (entry : WalEntry)
  | truncate
  | propose (height round : Nat) (blockHash : Hash) (validRound : Option Nat)
  | execute (action : TendermintAction)
  | advanceHeight (height totalStake : Nat)
deriving DecidableEq

structure PendingCommitApplication where
  height : Nat
  round : Nat
  blockHash : Hash
deriving DecidableEq

/-- The part of a validator that casts votes. `certRounds` are the rounds with a local entry in
`signed_precommits_for_cert`; the newest observation comes first. -/
structure VotingNode where
  localId : AccountId
  machine : TendermintState
  wal : ConsensusWal
  pendingCommit : Option PendingCommitApplication
  certRounds : List Nat
  todo : List Task
  history : List Observation

/-- The inputs of the consensus loop. Votes and certificates have passed their signature checks. -/
inductive Event where
  | proposalValidated (height round : Nat) (blockHash : Hash) (validRound : Option Nat)
  | localProposalBuilt (height round : Nat) (blockHash : Hash) (isProposer : Bool)
  | prevote (height round : Nat) (blockHash : Hash) (voter : AccountId) (stake : Nat)
  | precommit (height round : Nat) (blockHash : Hash) (voter : AccountId) (stake : Nat)
  | timeout
  | commitCertificate (height round : Nat) (blockHash : Hash) (listsLocal : Bool)
  | commitFinalized (applied : Bool)
  | committed (totalStake : Nat)
  | synced (blockSlot totalStake : Nat)
  | task (localStake : Nat)
  | crash (tipSlot totalStake : Nat) (storedBlocks : List Hash)
deriving DecidableEq

def observe (history : List Observation) (s : TendermintState) : List Observation :=
  match s.prevotes.quorumBlockHash with
  | some hash => .quorum s.height s.round hash :: history
  | none => history

def replayStates (s : TendermintState) : List BufferedVote → List TendermintState
  | [] => []
  | b :: votes => (s.replay b).2 :: replayStates (s.replay b).2 votes

variable (s : TendermintState)

def drainStates : List TendermintState :=
  match s.futureVotes s.round with
  | none => []
  | some votes => replayStates s.dropBuffered votes

def onTimeout : TendermintAction × TendermintState :=
  match s.step with
  | .propose => s.onProposeTimeout
  | .prevote => s.onPrevoteTimeout
  | .precommit => s.onPrecommitTimeout
  | .commitWait => s.onCommitWaitTimeout
  | .committed => (.none, s)

namespace VotingNode

def start (localId : AccountId) (height totalStake : Nat) : VotingNode where
  localId := localId
  machine := .new height totalStake
  wal := []
  pendingCommit := none
  certRounds := []
  todo := []
  history := []

variable (node : VotingNode)

def react (result : TendermintAction × TendermintState) (first rest : List Task) : VotingNode :=
  { node with
    machine := result.2
    history := observe node.history result.2
    todo := first ++ .execute result.1 :: rest }

def addCertRound (round : Nat) : VotingNode :=
  { node with certRounds := if round ∈ node.certRounds then node.certRounds else round :: node.certRounds }

@[simp] theorem addCertRound_machine (node : VotingNode) (round : Nat) :
    (node.addCertRound round).machine = node.machine := rfl

@[simp] theorem addCertRound_pendingCommit (node : VotingNode) (round : Nat) :
    (node.addCertRound round).pendingCommit = node.pendingCommit := rfl

/-- `execute_tendermint_action`. The own vote is fed back before it is sent, and sent before it is logged. -/
def execute (localStake : Nat) (rest : List Task) : TendermintAction → VotingNode
  | .none => { node with todo := rest }
  | .broadcastPrevote height round hash =>
    node.react (node.machine.onPrevote height round hash node.localId localStake)
      [.send ⟨height, round, .prevote, hash⟩, .log (.prevote height round hash)] rest
  | .broadcastPrecommit height round hash =>
    (node.addCertRound round).react (node.machine.onPrecommit height round hash node.localId localStake)
      ([.send ⟨height, round, .precommit, hash⟩, .log (.precommit height round hash)] ++
        if hash ≠ nilBlockHash then [.log (.lock height round hash)] else []) rest
  | .commit height round hash => { node with pendingCommit := some ⟨height, round, hash⟩, todo := rest }
  | .scheduleProposal _ _ =>
    let (actions, s) := node.machine.drainBufferedVotes
    { node with
      machine := s
      history := (drainStates node.machine).foldl observe node.history
      todo := actions.map .execute ++ rest }

def runTask (localStake : Nat) (rest : List Task) : Task → VotingNode
  | .send vote => { node with history := .sent vote :: node.history, todo := rest }
  | .log entry => { node with wal := node.wal.write entry, todo := rest }
  | .truncate => { node with wal := node.wal.truncate, todo := rest }
  | .propose height round hash validRound => node.react (node.machine.onProposal height round hash validRound) [] rest
  | .execute action => node.execute localStake rest action
  | .advanceHeight height totalStake =>
    { node with
      machine := node.machine.newHeight height totalStake
      pendingCommit := none
      certRounds := []
      todo := rest }

/-- Start-up after a crash: only the lock is taken from the log, and only if its block is already stored. -/
def restart (tipSlot totalStake : Nat) (storedBlocks : List Hash) : VotingNode :=
  let startingHeight := u64Add tipSlot 1
  let recovery := node.wal.recover
  let fresh := { start node.localId startingHeight totalStake with history := node.history }
  match recovery.lockedRound, recovery.lockedHash with
  | some lr, some lh =>
    if recovery.height = startingHeight ∧ lh ∈ storedBlocks then
      { fresh with machine := fresh.machine.restoreLock lr lh, wal := node.wal }
    else { fresh with wal := node.wal.truncate }
  | _, _ => { fresh with wal := node.wal.truncate }

def handle : Event → VotingNode
  | .proposalValidated height round hash validRound =>
    if height ≠ node.machine.height then node
    else { node with todo := [.log (.proposal height round hash), .propose height round hash validRound] }
  | .localProposalBuilt height round hash isProposer =>
    if height = node.machine.height ∧ round = node.machine.round ∧ node.machine.step = .propose ∧ isProposer ∧
        ¬ node.machine.proposalReceived then
      { node with todo := [.propose height round hash none] }
    else node
  | .prevote height round hash voter stake =>
    if stake = 0 then node else node.react (node.machine.onPrevote height round hash voter stake) [] []
  | .precommit height round hash voter stake =>
    if stake = 0 then node
    else
      let node := if height = node.machine.height ∧ voter = node.localId then node.addCertRound round else node
      node.react (node.machine.onPrecommit height round hash voter stake) [] []
  | .timeout => node.react (onTimeout node.machine) [] []
  | .commitCertificate height round hash listsLocal =>
    if height ≠ node.machine.height then node
    else if node.machine.step = .commitWait ∨ node.machine.step = .committed then node
    else if hash = nilBlockHash then node
    else
      let node := if listsLocal then node.addCertRound round else node
      { node with
        machine := node.machine.forceCommit height round hash
        pendingCommit := some ⟨height, round, hash⟩ }
  | .commitFinalized applied =>
    match node.pendingCommit with
    | none => node
    | some pending =>
      let node := { node with pendingCommit := none }
      if ¬ applied then node
      else if pending.round ∈ node.certRounds then node
      else
        { node.addCertRound pending.round with
          todo := [.send ⟨pending.height, pending.round, .precommit, pending.blockHash⟩] }
  | .committed totalStake =>
    if node.machine.step = .committed ∧ node.machine.committedHash.isSome ∧ node.pendingCommit = none then
      let height := u64Add node.machine.height 1
      { node with todo := [.log (.heightAdvance height), .truncate, .advanceHeight height totalStake] }
    else node
  | .synced blockSlot totalStake =>
    let nextHeight := u64SatAdd blockSlot 1
    if nextHeight ≤ node.machine.height then node
    else
      { node with
        machine := node.machine.newHeight nextHeight totalStake
        pendingCommit := none
        certRounds := [] }
  | .task _ => node
  | .crash _ _ _ => node

def step (event : Event) : VotingNode :=
  match event, node.todo with
  | .crash tipSlot totalStake storedBlocks, _ => node.restart tipSlot totalStake storedBlocks
  | .task localStake, task :: rest => node.runTask localStake rest task
  | event, [] => node.handle event
  | _, _ => node

def run (events : List Event) : VotingNode := Lib.run step node events

end VotingNode

end AceChain.Node
