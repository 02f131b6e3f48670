import AceChain.Consensus.Calls
import AceChain.Lib.LockedVoting

namespace AceChain.Consensus

open Lib VoteCollector VoteType

def VoteType.phase : VoteType → Phase
  | .prevote => .prevote
  | .precommit => .precommit

/-- One height of the chain: the validators with their stake table, and which of them are honest. -/
structure Network where
  height : Nat
  validators : Finset AccountId
  stake : AccountId → Nat
  honest : Finset AccountId
  totalStake_lt : ∑ v ∈ validators, stake v < 2 ^ 64

namespace Network

variable (net : Network)

def electorate : Electorate AccountId where
  members := net.validators
  weight := net.stake
  trusted := fun v => v ∈ net.honest

def totalStake : Nat := ∑ v ∈ net.validators, net.stake v

def byzantineStake : Nat := ∑ v ∈ net.validators.filter (· ∉ net.honest), net.stake v

end Network

abbrev VoteLog := List (Ballot AccountId Hash)

structure CommitRecord where
  node : AccountId
  height : Nat
  round : Nat
  blockHash : Hash
deriving DecidableEq

structure World where
  node : AccountId → TendermintState
  sent : VoteLog
  commits : List CommitRecord

def recordVote (n : AccountId) (log : VoteLog) (a : TendermintAction) : VoteLog :=
  match a.cast with
  | some vote => ⟨n, vote.voteType.phase, vote.round, vote.blockHash⟩ :: log
  | none => log

def recordCommit (n : AccountId) (commits : List CommitRecord) : TendermintAction → List CommitRecord
  | .commit height round blockHash => ⟨n, height, round, blockHash⟩ :: commits
  | _ => commits

namespace Network

variable (net : Network)

def initial : World where
  node := fun _ => .new net.height net.totalStake
  sent := []
  commits := []

/-- A vote that can arrive: its voter is a validator counted with its stake, and an honest voter has broadcast it. -/
def Authentic (log : VoteLog) (t : VoteType) (round : Nat) (voter : AccountId) (hash : Hash)
    (stake : Nat) : Prop :=
  voter ∈ net.validators ∧ stake = net.stake voter ∧ (voter ∈ net.honest → ⟨voter, t.phase, round, hash⟩ ∈ log)

def Delivers (log : VoteLog) : Call → Prop
  | .onPrevote height round hash voter stake => height = net.height → net.Authentic log .prevote round voter hash stake
  | .onPrecommit height round hash voter stake =>
    height = net.height → net.Authentic log .precommit round voter hash stake
  | .newRound _ => False
  | .newHeight _ _ => False
  | .forceCommit _ _ _ => False
  | .restoreLock _ _ => False
  | _ => True

end Network

def World.handle (w : World) (n : AccountId) (c : Call) : World :=
  let (actions, s) := (w.node n).call c
  { node := Function.update w.node n s
    sent := actions.foldl (recordVote n) w.sent
    commits := actions.foldl (recordCommit n) w.commits }

/-- The worlds reached by honest validators handling deliverable inputs that meet `ok`, in any order. -/
inductive Network.Reaches (net : Network) (ok : TendermintState → Call → Prop) : World → Prop where
  | initial : net.Reaches ok net.initial
  | handle {w : World} {n : AccountId} {c : Call} (before : net.Reaches ok w) (honest : n ∈ net.honest)
      (delivers : net.Delivers w.sent c) (meets : ok (w.node n) c) : net.Reaches ok (w.handle n c)

/-- No precommit timeout is handled in the last round a `u32` can count. -/
def NoRoundWrap (s : TendermintState) : Call → Prop
  | .onPrecommitTimeout => s.step ≠ .committed → s.step ≠ .commitWait → s.round + 1 < 2 ^ 32
  | _ => True

structure Sound (net : Network) (log : VoteLog) (s : TendermintState) : Prop where
  height : s.height = net.height
  totalStake : s.totalStake = net.totalStake
  prevoteTotal : s.prevotes.totalStake = net.totalStake
  precommitTotal : s.precommits.totalStake = net.totalStake
  prevotes : s.prevotes.Tallies net.validators net.stake
  precommits : s.precommits.Tallies net.validators net.stake
  holds : s.Holds False (net.Authentic log)

namespace Sound

variable {net : Network} {log log' : VoteLog} {s s' : TendermintState}

theorem authentic_mono (subset : log ⊆ log') (t : VoteType) (r : Nat) (v : AccountId) (h : Hash) (stake : Nat)
    (vote : net.Authentic log t r v h stake) : net.Authentic log' t r v h stake :=
  ⟨vote.1, vote.2.1, fun honest => subset (vote.2.2 honest)⟩

theorem mono (sound : Sound net log s) (subset : log ⊆ log') : Sound net log' s :=
  { sound with holds := sound.holds.mono (authentic_mono subset) }

theorem new : Sound net log (.new net.height net.totalStake) :=
  ⟨rfl, rfl, rfl, rfl, tallies_new _ _ _ _, tallies_new _ _ _ _,
    TendermintState.holds_new _ _⟩

theorem quiet (sound : Sound net log s) (quiet : TendermintState.Quiet s s') : Sound net log s' :=
  ⟨quiet.height.trans sound.height, quiet.totalStake.trans sound.totalStake, quiet.prevotes ▸ sound.prevoteTotal,
    quiet.precommits ▸ sound.precommitTotal, quiet.prevotes ▸ sound.prevotes, quiet.precommits ▸ sound.precommits,
    sound.holds.quiet quiet⟩

theorem newRound (sound : Sound net log s) (round : Nat) : Sound net log (s.newRound round) :=
  ⟨sound.height, sound.totalStake, sound.totalStake, sound.totalStake, tallies_new _ _ _ _,
    tallies_new _ _ _ _, sound.holds.newRound round⟩

variable {hash : Hash}

theorem takes (sound : Sound net log s) {t : VoteType} {height round : Nat} {voter : AccountId} {stake : Nat}
    (takes : s.Takes t height round hash voter stake s')
    (vote : height = net.height → net.Authentic log t round voter hash stake) :
    Sound net log s' := by
  rw [← sound.height] at vote
  have holds := sound.holds.takes takes vote
  cases takes with
  | dropped => exact sound
  | buffered => exact { sound with holds := holds }
  | counted heights rounds _ quiet =>
    obtain ⟨member, rfl, -⟩ := vote heights
    cases t with
    | prevote =>
      refine ⟨quiet.height.trans sound.height, quiet.totalStake.trans sound.totalStake, ?_,
        quiet.precommits ▸ sound.precommitTotal, ?_, quiet.precommits ▸ sound.precommits, holds⟩ <;> rw [quiet.prevotes]
      · exact (addVoteRaw_totalStake ..).trans sound.prevoteTotal
      · exact sound.prevotes.addVoteRaw net.totalStake_lt member hash
    | precommit =>
      refine ⟨quiet.height.trans sound.height, quiet.totalStake.trans sound.totalStake,
        quiet.prevotes ▸ sound.prevoteTotal, ?_, quiet.prevotes ▸ sound.prevotes, ?_, holds⟩ <;> rw [quiet.precommits]
      · exact (addVoteRaw_totalStake ..).trans sound.precommitTotal
      · exact sound.precommits.addVoteRaw net.totalStake_lt member hash

theorem supported {c : VoteCollector} {t : VoteType} {round : Nat}
    (total : c.totalStake = net.totalStake) (tallies : c.Tallies net.validators net.stake)
    (cast : ∀ v h, c.voterFirstHash v = some h → ∃ stake, net.Authentic log t round v h stake)
    (quorum : c.quorumBlockHash = some hash) : Supported net.electorate log t.phase round hash := by
  refine ⟨net.validators.filter (fun v => c.voterFirstHash v = some hash), ⟨Finset.filter_subset _ _, ?_⟩, ?_⟩
  · have reached := (hasQuorum_iff _ _).mp (quorumBlockHash_hasQuorum quorum)
    rw [tallies hash, total] at reached
    exact reached.2
  · intro v member honest
    obtain ⟨stake, authentic⟩ := cast v hash (Finset.mem_filter.mp member).2
    exact authentic.2.2 honest

theorem prevote_supported (sound : Sound net log s) (quorum : s.prevotes.quorumBlockHash = some hash) :
    Supported net.electorate log .prevote s.round hash := by
  rcases sound.holds.prevotes with ⟨impossible, -⟩ | cast
  · exact impossible.elim
  · exact supported (t := .prevote) sound.prevoteTotal sound.prevotes cast quorum

theorem precommit_supported (sound : Sound net log s)
    (quorum : s.precommits.quorumBlockHash = some hash) : Supported net.electorate log .precommit s.round hash :=
  supported (t := .precommit) sound.precommitTotal sound.precommits sound.holds.precommits quorum

end Sound

/-- The invariant of one honest validator `n`: sound collectors, and the locking discipline read off the log. -/
structure NodeInv (net : Network) (log : VoteLog) (n : AccountId) (s : TendermintState) : Prop
    extends Sound net log s where
  locks : s.LockInv (Supported net.electorate log .prevote) (fun t r h => ⟨n, t.phase, r, h⟩ ∈ log)

theorem VoteType.exists_phase (p : Phase) : ∃ t : VoteType, t.phase = p := by
  cases p
  · exact ⟨.prevote, rfl⟩
  · exact ⟨.precommit, rfl⟩

theorem VoteType.phase_inj {t u : VoteType} (same : t.phase = u.phase) : t = u := by
  cases t <;> cases u <;> simp_all [phase]

variable {n : AccountId}

theorem recordVote_of_none {log : VoteLog} {a : TendermintAction} (silent : a.cast = none) :
    recordVote n log a = log := by
  simp [recordVote, silent]

theorem recordVote_of_some {log : VoteLog} {a : TendermintAction} {vote : CastVote}
    (cast : a.cast = some vote) :
    recordVote n log a = ⟨n, vote.voteType.phase, vote.round, vote.blockHash⟩ :: log := by
  simp [recordVote, cast]

theorem subset_recordVote (n : AccountId) (log : VoteLog) (a : TendermintAction) : log ⊆ recordVote n log a := by
  unfold recordVote
  split
  · exact List.subset_cons_self _ _
  · exact List.Subset.refl _

section Step

variable {net : Network} {log : VoteLog} {n m : AccountId} {s s' : TendermintState} {a : TendermintAction}

theorem admissible_of_justified {vote : CastVote}
    (locks : s.LockInv (Supported net.electorate log .prevote) (fun t r h => ⟨n, t.phase, r, h⟩ ∈ log))
    (justified : s.Justified (Supported net.electorate log .prevote) (fun t r h => ⟨n, t.phase, r, h⟩ ∈ log) vote) :
    Admissible net.electorate nilBlockHash log ⟨n, vote.voteType.phase, vote.round, vote.blockHash⟩ where
  fresh := by
    rintro ⟨v, p, r, h⟩ member voter phase round
    dsimp only at voter phase round
    subst voter phase round
    exact justified.fresh h member
  ordered := by
    rintro ⟨v, p, r, h⟩ member voter
    subst voter
    obtain ⟨t, rfl⟩ := exists_phase p
    simpa [justified.round] using locks.rounds t r h member
  supported := by
    intro phase value
    exact justified.supported (phase_inj phase) value
  unlocked := by
    rintro phase value ⟨v, p, r, h⟩ member voter precommit block other
    subst voter precommit
    exact justified.unlocked (phase_inj phase) value r h member block other

theorem NodeInv.quorum (move : TendermintState.Move s a s') (sound : Sound net log s') (h : Hash)
    (quorum : s'.prevotes.quorumBlockHash = some h) : Supported net.electorate log .prevote s.round h := by
  rcases move.round_eq_or_empty with round | empty
  · exact round ▸ sound.prevote_supported quorum
  · simp [empty] at quorum

theorem NodeInv.lockedLog (inv : NodeInv net log n s) (locked : LockedLog net.electorate nilBlockHash log)
    (move : s.Move a s') (sound : Sound net log s') :
    LockedLog net.electorate nilBlockHash (recordVote n log a) := by
  cases cast : a.cast with
  | none => rwa [recordVote_of_none cast]
  | some vote =>
    rw [recordVote_of_some cast]
    have justified := inv.locks.justified move (fun h _ => NodeInv.quorum move sound h) cast
    exact .cons locked (fun _ => admissible_of_justified inv.locks justified)

theorem NodeInv.move (inv : NodeInv net log n s) (move : s.Move a s') (sound : Sound net log s') :
    NodeInv net (recordVote n log a) n s' := by
  have locks := inv.locks.move move (fun h _ => NodeInv.quorum move sound h)
  have own : (fun t r h => ⟨n, t.phase, r, h⟩ ∈ log ∨ a.cast = some ⟨s.height, r, t, h⟩) =
      (fun (t : VoteType) r h => ⟨n, t.phase, r, h⟩ ∈ recordVote n log a) := by
    funext t r h
    cases cast : a.cast with
    | none => simp [recordVote_of_none cast]
    | some vote =>
      have justified := inv.locks.justified move (fun h _ => NodeInv.quorum move sound h) cast
      rw [recordVote_of_some cast, ← justified.height]
      obtain ⟨height, round, type, hash⟩ := vote
      have phases : t.phase = type.phase ↔ type = t :=
        ⟨fun same => (phase_inj same).symm, fun same => congrArg _ same.symm⟩
      grind
  rw [own] at locks
  have subset := subset_recordVote n log a
  exact { sound.mono subset with locks := locks.weaken (fun r h support => support.mono subset) }

theorem NodeInv.other (inv : NodeInv net log m s) (different : m ≠ n) (a : TendermintAction) :
    NodeInv net (recordVote n log a) m s := by
  have subset := subset_recordVote n log a
  have own : (fun t r h => ⟨m, t.phase, r, h⟩ ∈ log) =
      (fun (t : VoteType) r h => ⟨m, t.phase, r, h⟩ ∈ recordVote n log a) := by
    funext t r h
    cases cast : a.cast with
    | none => simp [recordVote_of_none cast]
    | some vote => simp [recordVote_of_some cast, different]
  have locks := inv.locks.weaken (fun r h support => support.mono subset)
  rw [own] at locks
  exact { inv.toSound.mono subset with locks := locks }

theorem NodeInv.others (inv : NodeInv net log m s) (different : m ≠ n) (actions : List TendermintAction) :
    NodeInv net (actions.foldl (recordVote n) log) m s := by
  induction actions generalizing log with
  | nil => exact inv
  | cons a actions ih => exact ih (inv.other different a)

end Step

def CommitsSupported (net : Network) (log : VoteLog) (commits : List CommitRecord) : Prop :=
  ∀ c ∈ commits, c.blockHash ≠ nilBlockHash ∧ Supported net.electorate log .precommit c.round c.blockHash

structure Local (net : Network) (n : AccountId) (log : VoteLog) (commits : List CommitRecord) (s : TendermintState) :
    Prop where
  locked : LockedLog net.electorate nilBlockHash log
  node : NodeInv net log n s
  commits : CommitsSupported net log commits

namespace Local

variable {net : Network} {log : VoteLog} {commits : List CommitRecord} {n : AccountId} {s s' : TendermintState}
  {a : TendermintAction}

theorem pending (inv : Local net n log commits s) : s.step = .prevote → s.precommitted = false :=
  fun step => inv.node.locks.pending (.inr step)

theorem move (inv : Local net n log commits s) (move : s.Move a s') (sound : Sound net log s') :
    Local net n (recordVote n log a) (recordCommit n commits a) s' where
  locked := inv.node.lockedLog inv.locked move sound
  node := inv.node.move move sound
  commits := by
    have subset := subset_recordVote n log a
    have old : CommitsSupported net (recordVote n log a) commits :=
      fun c member => ⟨(inv.commits c member).1, (inv.commits c member).2.mono subset⟩
    cases a with
    | commit height round hash =>
      obtain ⟨block, -, rounds, quorum, -⟩ := move.commits height round hash rfl
      have same : s'.round = s.round := by
        cases move with
        | stay _ _ _ round => exact round
      intro c member
      rcases List.mem_cons.mp member with rfl | earlier
      · have support := sound.precommit_supported quorum
        rw [same, ← rounds] at support
        exact ⟨block, support.mono subset⟩
      · exact old c earlier
    | none => exact old
    | scheduleProposal => exact old
    | broadcastPrevote => exact old
    | broadcastPrecommit => exact old

theorem replay (inv : Local net n log commits s) {b : BufferedVote}
    (vote : net.Authentic log (if b.isPrecommit then .precommit else .prevote) s.round b.voter b.blockHash b.stake) :
    Local net n (recordVote n log (s.replay b).1) (recordCommit n commits (s.replay b).1) (s.replay b).2 := by
  unfold TendermintState.replay
  split <;> rename_i kind
  · exact inv.move (s.onPrecommit_move _ _ _ _ _)
      (inv.node.toSound.takes (s.onPrecommit_takes _ _ _ _ _) (fun _ => by simpa [kind] using vote))
  · exact inv.move (s.onPrevote_move _ _ _ _ _ inv.pending)
      (inv.node.toSound.takes (s.onPrevote_takes _ _ _ _ _) (fun _ => by simpa [kind] using vote))

theorem replayAll (votes : List BufferedVote) :
    ∀ (log : VoteLog) (commits : List CommitRecord) (s : TendermintState), Local net n log commits s →
      (∀ b ∈ votes, net.Authentic log (if b.isPrecommit then .precommit else .prevote) s.round b.voter b.blockHash
        b.stake) →
      Local net n ((s.replayAll votes).1.foldl (recordVote n) log) ((s.replayAll votes).1.foldl (recordCommit n) commits)
        (s.replayAll votes).2 := by
  induction votes with
  | nil => exact fun log commits s inv _ => inv
  | cons b votes ih =>
    intro log commits s inv cast
    have position := s.replay_position b
    have step := inv.replay (cast b List.mem_cons_self)
    have rest := ih _ _ (s.replay b).2 step (by
      intro c member
      rw [position.2]
      exact Sound.authentic_mono (subset_recordVote n log _) _ _ _ _ _ (cast c (List.mem_cons_of_mem b member)))
    simp only [TendermintState.replayAll]
    split <;> rename_i silent
    · exact rest
    · rw [not_not.mp silent] at rest
      exact rest

theorem drainBufferedVotes (inv : Local net n log commits s) :
    Local net n (s.drainBufferedVotes.1.foldl (recordVote n) log) (s.drainBufferedVotes.1.foldl (recordCommit n) commits)
      s.drainBufferedVotes.2 := by
  rw [TendermintState.drainBufferedVotes_eq]
  split <;> rename_i found
  · exact inv
  · have sound : Sound net log s.dropBuffered := { inv.node.toSound with holds := inv.node.holds.dropBuffered }
    have locks : s.dropBuffered.LockInv (Supported net.electorate log .prevote)
        (fun t r h => ⟨n, t.phase, r, h⟩ ∈ log) := { inv.node.locks with }
    exact replayAll _ log commits s.dropBuffered ⟨inv.locked, { sound with locks := locks }, inv.commits⟩
      (inv.node.holds.buffered _ _ found)

theorem call (inv : Local net n log commits s) (c : Call) (delivers : net.Delivers log c) (noWrap : NoRoundWrap s c) :
    Local net n ((s.call c).1.foldl (recordVote n) log) ((s.call c).1.foldl (recordCommit n) commits) (s.call c).2 := by
  cases c with
  | onProposal height round hash validRound =>
    exact inv.move (s.onProposal_move height round hash validRound)
      (inv.node.toSound.quiet (s.onProposal_quiet height round hash validRound))
  | onPrevote height round hash voter stake =>
    exact inv.move (s.onPrevote_move height round hash voter stake inv.pending)
      (inv.node.toSound.takes (s.onPrevote_takes height round hash voter stake) delivers)
  | onPrecommit height round hash voter stake =>
    exact inv.move (s.onPrecommit_move height round hash voter stake)
      (inv.node.toSound.takes (s.onPrecommit_takes height round hash voter stake) delivers)
  | onProposeTimeout => exact inv.move s.onProposeTimeout_move (inv.node.toSound.quiet s.onProposeTimeout_quiet)
  | onPrevoteTimeout =>
    exact inv.move (s.onPrevoteTimeout_move inv.pending) (inv.node.toSound.quiet s.onPrevoteTimeout_quiet)
  | onPrecommitTimeout =>
    have sound : Sound net log s.onPrecommitTimeout.2 := by
      unfold TendermintState.onPrecommitTimeout
      split
      · exact inv.node.toSound
      · exact inv.node.toSound.newRound _
    exact inv.move (s.onPrecommitTimeout_move noWrap) sound
  | onCommitWaitTimeout =>
    exact inv.move s.onCommitWaitTimeout_move (inv.node.toSound.quiet s.onCommitWaitTimeout_quiet)
  | drainBufferedVotes => exact inv.drainBufferedVotes
  | newRound => exact delivers.elim
  | newHeight => exact delivers.elim
  | forceCommit => exact delivers.elim
  | restoreLock => exact delivers.elim

end Local

structure WorldInv (net : Network) (w : World) : Prop where
  locked : LockedLog net.electorate nilBlockHash w.sent
  nodes : ∀ n ∈ net.honest, NodeInv net w.sent n (w.node n)
  commits : CommitsSupported net w.sent w.commits

theorem worldInv_initial (net : Network) : WorldInv net net.initial where
  locked := .nil
  nodes := by
    intro n _
    have locks : (net.initial.node n).LockInv (Supported net.electorate [] .prevote)
        (fun t r h => ⟨n, t.phase, r, h⟩ ∈ ([] : VoteLog)) := TendermintState.lockInv_new _ _ (by simp)
    exact { Sound.new with locks := locks }
  commits := by simp [CommitsSupported, Network.initial]

theorem WorldInv.handle {net : Network} {w : World} {c : Call} (inv : WorldInv net w)
    (honest : n ∈ net.honest) (delivers : net.Delivers w.sent c) (noWrap : NoRoundWrap (w.node n) c) :
    WorldInv net (w.handle n c) := by
  have here : Local net n w.sent w.commits (w.node n) := ⟨inv.locked, inv.nodes n honest, inv.commits⟩
  have step := here.call c delivers noWrap
  refine ⟨step.locked, ?_, step.commits⟩
  intro m honestM
  by_cases same : m = n
  · subst same
    simpa only [World.handle, Function.update_self] using step.node
  · simp only [World.handle, Function.update_of_ne same]
    exact (inv.nodes m honestM).others same _

theorem worldInv_reaches {net : Network} {w : World} (reaches : net.Reaches NoRoundWrap w) : WorldInv net w := by
  induction reaches with
  | initial => exact worldInv_initial net
  | handle _ honest delivers noWrap ih => exact ih.handle honest delivers noWrap

end AceChain.Consensus
