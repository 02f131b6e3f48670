import AceChain.Node.Commit
import AceChain.Node.History

namespace AceChain.Node

open AceChain.Runtime Consensus Governance State

inductive FinalityAction where
  | none
  | slashBuilder
  | requeueTxs
  | slashAndRequeue
deriving DecidableEq

def snapshotWindow : Nat := 3 + 3 + 2

def finalityRetention : Nat := 50

/-- `cleanup_finalized`: the tracking of old terminal slots goes, and every snapshot that is too old or whose slot
is not open any more. -/
def ConsensusEngine.cleanupFinalized (e : ConsensusEngine) (currentSlot : Nat) : ConsensusEngine :=
  let terminal (slot : Nat) : Bool :=
    slot < currentSlot - finalityRetention && ((e.finalityMachines slot).map (·.isTerminal)).getD false
  let retained (slot : Nat) : Bool :=
    currentSlot - snapshotWindow ≤ slot && !terminal slot &&
      ((e.finalityMachines slot).map (fun state => !state.isTerminal)).getD false
  { e with
    finalityMachines := fun slot => if terminal slot then none else e.finalityMachines slot
    voteCollectors := fun slot => if terminal slot then none else e.voteCollectors slot
    stateSnapshots := fun slot => if retained slot then e.stateSnapshots slot else none }

namespace Rules

variable (r : Rules)

def slashOneEquivocator (acc : RuntimeGovernance × ShardedState) (validator : AccountId) :
    RuntimeGovernance × ShardedState :=
  (RuntimeGovernance.slashEquivocator r.machine.derive acc.1 validator acc.2).2

/-- The loops over a map of equivocators; `order` is the order in which the map is visited. -/
def slashEquivocators (equivocators : AccountId → Option (Hash × Hash)) (order : List AccountId) (nowMs : Nat)
    (node : ChainNode) : ChainNode :=
  let found := order.filter (fun validator => (equivocators validator).isSome)
  if found.isEmpty then node
  else
    let (governance, state) := found.foldl r.slashOneEquivocator (node.governance, node.state)
    { node with
      governance := governance
      state := state
      engine := r.syncEffectiveValidatorSet node.engine governance nowMs }

variable (node : ChainNode) (slot : Nat)

def noteAbsentLeader : ChainNode :=
  { node with governance := node.governance.noteLeaderAbsence (r.leaderForSlot slot node.engine.validatorSet) }

/-- The builder of a slot is slashed on the live state. `resync` tells after which outcomes the effective validator
set is recomputed. -/
def slashBuilderOf (resync : Option Nat → Bool) (node : ChainNode) (slot nowMs : Nat) : ChainNode :=
  match node.store.getBlockBySlot slot with
  | none => node
  | some block =>
    match RuntimeGovernance.slashBuilder r.machine.derive node.governance ⟨block.header.leaderIdcom⟩ node.state with
    | (.error _, governance, state) => { node with governance := governance, state := state }
    | (.ok amount, governance, state) =>
      { node with
        governance := governance
        state := state
        engine := if resync amount then r.syncEffectiveValidatorSet node.engine governance nowMs else node.engine }

def recordFinality : ChainNode :=
  let previous := node.store.getFinalityState slot
  match node.engine.finalityMachines slot with
  | none => node
  | some current =>
    let node := { node with store := node.store.setFinalityState slot current }
    if previous ≠ some .hard ∧ current = .hard then
      match node.store.getBlockBySlot slot with
      | some block =>
        { node with governance := node.governance.noteValidatorSuccess ⟨block.header.leaderIdcom⟩ }
      | none => node
    else node

/-- The part of `handle_finality_action` before the action: the first `Soft` slashes the slot's equivocators. -/
def observeFinality (order : List AccountId) (nowMs : Nat) : ChainNode :=
  let recorded := recordFinality node slot
  if node.store.getFinalityState slot ≠ some .soft ∧ node.engine.finalityMachines slot = some .soft then
    match node.engine.voteCollectors slot with
    | some collector => r.slashEquivocators collector.equivocators order nowMs recorded
    | none => recorded
  else recorded

def handleFinalityAction (action : FinalityAction) (order : List AccountId)
    (nowMs : Nat) : ChainNode :=
  let node := r.observeFinality node slot order nowMs
  match action with
  | .none => node
  | .slashBuilder => r.slashBuilderOf (·.isSome) (r.noteAbsentLeader node slot) slot nowMs
  | .requeueTxs => (r.doRollback node slot).2
  | .slashAndRequeue =>
    (r.doRollback (r.slashBuilderOf (fun _ => true) (r.noteAbsentLeader node slot) slot nowMs) slot).2

end Rules

structure RunningNode where
  chain : ChainNode
  pending : Option FinalizedCommit

/-- What the loop of a non-devnet node handles. Votes, certificates and timeouts come as the state they move a finality
machine to and the action it asks for. -/
inductive NodeEvent where
  | consensus (call : Call)
  | checkEquivocators (order : List AccountId) (nowMs : Nat)
  | startCommit (prepared : PreparedBlockExecution) (block : Block)
  | commitFinalized
  | blockRecord (call : IngestCall)
  | finality (slot : Nat) (state : FinalityState) (action : FinalityAction) (order : List AccountId) (nowMs : Nat)
  | cleanup (currentSlot : Nat)

namespace Rules

variable (r : Rules)

def withFinality (node : ChainNode) (slot : Nat) (state : FinalityState) : ChainNode :=
  { node with engine := { node.engine with
    finalityMachines := Function.update node.engine.finalityMachines slot (some state) } }

def handle (n : RunningNode) : NodeEvent → RunningNode
  | .consensus call =>
    { n with chain := { n.chain with engine := { n.chain.engine with
      tendermint := (n.chain.engine.tendermint.call call).2 } } }
  | .checkEquivocators order nowMs =>
    { n with chain := r.slashEquivocators n.chain.engine.tendermint.equivocators order nowMs n.chain }
  | .startCommit prepared block => { n with pending := (r.startCommit n.chain prepared block).toOption }
  | .commitFinalized =>
    match n.pending with
    | none => n
    | some finalized => ⟨(r.commitFinalized n.chain finalized).2, none⟩
  | .blockRecord call =>
    let chain := r.ingest n.chain call
    -- a validator that the sync moved to a later height drops its pending commit
    ⟨chain, if n.chain.engine.tendermint.height < chain.engine.tendermint.height then none else n.pending⟩
  | .finality slot state action order nowMs =>
    { n with chain := r.handleFinalityAction (withFinality n.chain slot state) slot action order nowMs }
  | .cleanup currentSlot => { n with chain := { n.chain with engine := n.chain.engine.cleanupFinalized currentSlot } }

end Rules

end AceChain.Node
