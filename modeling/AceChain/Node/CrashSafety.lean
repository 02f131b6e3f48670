import AceChain.Node.Voting

namespace AceChain.Node

open Consensus VotingNode List

variable (history : List Observation)

/-- Prevoting `q` is no breach of an older precommit among `voted`: either it is for the same block, or a prevote quorum
for the block of `q` has been seen since. -/
def Released (voted : CastVote → Prop) (q : CastVote) : Prop :=
  q.voteType = .prevote → q.blockHash ≠ nilBlockHash → ∀ p, voted p → p.voteType = .precommit → p.height = q.height →
    p.round < q.round → p.blockHash ≠ nilBlockHash → p.blockHash ≠ q.blockHash →
    ∃ r, p.round ≤ r ∧ .quorum q.height r q.blockHash ∈ history

def LocksRespected : List Observation → Prop
  | [] => True
  | .sent vote :: older => Released older (fun p => .sent p ∈ older) vote ∧ LocksRespected older
  | .quorum _ _ _ :: older => LocksRespected older

def VotesUnique : Prop :=
  ∀ v w, .sent v ∈ history → .sent w ∈ history → v.height = w.height → v.round = w.round → v.voteType = w.voteType →
    v.blockHash = w.blockHash

def Voted (queued : List CastVote) (v : CastVote) : Prop :=
  .sent v ∈ history ∨ v ∈ queued

def Stopped (s : TendermintState) : Prop := s.step = .committed ∨ s.step = .commitWait

section Observe

variable (history : List Observation) (s : TendermintState)

theorem subset_observe : history ⊆ observe history s := by
  unfold observe
  split
  · exact subset_cons_self _ _
  · exact List.Subset.refl _

theorem sent_mem_observe (v : CastVote) : .sent v ∈ observe history s ↔ .sent v ∈ history := by
  unfold observe
  split <;> simp

theorem quorum_mem_observe {hash : Hash} (quorum : s.prevotes.quorumBlockHash = some hash) :
    .quorum s.height s.round hash ∈ observe history s := by
  simp [observe, quorum]

theorem locksRespected_observe : LocksRespected (observe history s) ↔ LocksRespected history := by
  unfold observe
  split
  · exact Iff.rfl
  · exact Iff.rfl

theorem sent_mem_foldl_observe (states : List TendermintState) (v : CastVote) :
    .sent v ∈ states.foldl observe history ↔ .sent v ∈ history := by
  induction states generalizing history with
  | nil => exact Iff.rfl
  | cons s states ih => exact (ih _).trans (sent_mem_observe history s v)

end Observe

structure VoteInv (s : TendermintState) (history : List Observation) (queued : List CastVote) : Prop where
  locks : ¬ Stopped s → s.LockInv (fun r h => .quorum s.height r h ∈ history)
    (fun t r h => Voted history queued ⟨s.height, r, t, h⟩)
  here : ∀ v ∈ queued, v.height = s.height
  below : ∀ v, .sent v ∈ history → v.height ≤ s.height
  unique : ∀ v w, Voted history queued v → Voted history queued w → v.height = w.height → v.round = w.round →
    v.voteType = w.voteType → v.blockHash = w.blockHash
  respected : LocksRespected history
  released : ∀ q ∈ queued, Released history (Voted history queued) q

namespace VoteInv

variable {s s' : TendermintState} {history : List Observation} {queued queued' : List CastVote} {a : TendermintAction}

theorem congr (inv : VoteInv s history queued) (same : ∀ v, v ∈ queued ↔ v ∈ queued') : VoteInv s history queued' := by
  have voted : Voted history queued' = Voted history queued := by
    funext v
    simp only [Voted, same]
  refine ⟨?_, fun v member => inv.here v ((same v).mpr member), inv.below, ?_, inv.respected, ?_⟩ <;> rw [voted]
  · exact inv.locks
  · exact inv.unique
  · exact fun q member => inv.released q ((same q).mpr member)

theorem pending (inv : VoteInv s history queued) (step : s.step = .prevote) : s.precommitted = false :=
  (inv.locks (by simp [Stopped, step])).pending (.inr step)

theorem quorum_observed (move : s.Move a s') (h : Hash) (quorum : s'.prevotes.quorumBlockHash = some h) :
    .quorum s.height s.round h ∈ observe history s' := by
  rcases move.round_eq_or_empty with round | empty
  · rw [← move.height_eq, ← round]
    exact quorum_mem_observe history s' quorum
  · simp [empty] at quorum

theorem observe (inv : VoteInv s history queued) (s' : TendermintState) :
    VoteInv s (observe history s') queued := by
  have subset := subset_observe history s'
  have voted : Voted (Node.observe history s') queued = Voted history queued := by
    funext v
    simp only [Voted, sent_mem_observe]
  refine ⟨?_, inv.here, ?_, ?_, (locksRespected_observe history s').mpr inv.respected, ?_⟩
  · rw [voted]
    exact fun running => (inv.locks running).weaken (fun r h known => subset known)
  · exact fun v sent => inv.below v ((sent_mem_observe history s' v).mp sent)
  · rw [voted]
    exact inv.unique
  · rw [voted]
    intro q member prevote block p votedP precommit height round blockP other
    obtain ⟨r, above, known⟩ := inv.released q member prevote block p votedP precommit height round blockP other
    exact ⟨r, above, subset known⟩

theorem send {v : CastVote} (inv : VoteInv s history (v :: queued)) : VoteInv s (.sent v :: history) queued := by
  have voted : Voted (.sent v :: history) queued = Voted history (v :: queued) := by
    funext w
    simp only [Voted, mem_cons, Observation.sent.injEq, eq_iff_iff]
    grind
  refine ⟨?_, fun w member => inv.here w (mem_cons_of_mem v member), ?_, ?_, ⟨?_, inv.respected⟩, ?_⟩
  · rw [voted]
    exact fun running => (inv.locks running).weaken (fun r h known => mem_cons_of_mem _ known)
  · intro w sent
    rcases List.mem_cons.mp sent with same | earlier
    · obtain rfl := Observation.sent.inj same
      exact (inv.here w mem_cons_self).le
    · exact inv.below w earlier
  · rw [voted]
    exact inv.unique
  · intro prevote block p sent
    exact inv.released v mem_cons_self prevote block p (.inl sent)
  · rw [voted]
    intro q member prevote block p votedP precommit height round blockP other
    obtain ⟨r, above, known⟩ :=
      inv.released q (mem_cons_of_mem v member) prevote block p votedP precommit height round blockP other
    exact ⟨r, above, mem_cons_of_mem _ known⟩

theorem stop (inv : VoteInv s history queued) (height : s'.height = s.height) (stopped : Stopped s') :
    VoteInv s' history queued :=
  ⟨fun running => absurd stopped running, fun v member => (inv.here v member).trans height.symm,
    fun v sent => (inv.below v sent).trans height.ge, inv.unique, inv.respected, inv.released⟩

theorem fresh (inv : VoteInv s history queued) (above : ∀ v, .sent v ∈ history → v.height < s'.height)
    (locks : ∀ own : VoteType → Nat → Hash → Prop, (∀ t r h, ¬ own t r h) →
      s'.LockInv (fun r h => .quorum s'.height r h ∈ history) own) : VoteInv s' history [] := by
  refine ⟨fun _ => locks _ ?_, by simp, fun v sent => (above v sent).le, ?_, inv.respected, by simp⟩
  · rintro t r h (sent | member)
    · exact absurd rfl (above _ sent).ne
    · simp at member
  · rintro v w (sentV | memberV) (sentW | memberW)
    · exact inv.unique v w (.inl sentV) (.inl sentW)
    · simp at memberW
    · simp at memberV
    · simp at memberV

theorem move_stopped (inv : VoteInv s history queued) (move : s.Move a s') (stopped : Stopped s) :
    VoteInv s' (Node.observe history s') (a.cast.toList ++ queued) := by
  obtain ⟨silent, height, stopped'⟩ := move.stopped stopped
  rw [silent]
  exact (inv.observe s').stop height stopped'

theorem voted_append (v : CastVote) :
    Voted history (a.cast.toList ++ queued) v ↔ Voted history queued v ∨ a.cast = some v := by
  simp only [Voted, mem_append, Option.mem_toList]
  grind

theorem move_running (inv : VoteInv s history queued) (move : s.Move a s') (running : ¬ Stopped s) :
    VoteInv s' (Node.observe history s') (a.cast.toList ++ queued) := by
  have seen := inv.observe s'
  have locks := seen.locks running
  have quorum : ∀ h, h ≠ nilBlockHash → s'.prevotes.quorumBlockHash = some h →
      .quorum s.height s.round h ∈ Node.observe history s' := fun h _ => quorum_observed move h
  have justified : ∀ vote, a.cast = some vote → s.Justified (fun r h => .quorum s.height r h ∈ Node.observe history s')
      (fun t r h => Voted (Node.observe history s') queued ⟨s.height, r, t, h⟩) vote :=
    fun vote cast => locks.justified move quorum cast
  -- a vote cast now is the first one of its kind in this round
  have conflict : ∀ v w, Voted (Node.observe history s') queued v → a.cast = some w → v.height = w.height →
      v.round = w.round → v.voteType = w.voteType → False := by
    rintro ⟨height, round, type, hash⟩ w voted cast rfl rfl rfl
    have fresh := (justified w cast).fresh hash
    rw [← (justified w cast).height] at fresh
    exact fresh voted
  refine ⟨fun _ => ?_, ?_, ?_, ?_, seen.respected, ?_⟩
  · have after := locks.move move quorum
    rw [move.height_eq]
    simp only [voted_append]
    exact after
  · intro v member
    rw [move.height_eq]
    rcases List.mem_append.mp member with new | old
    · exact (justified v (by simpa using new)).height
    · exact seen.here v old
  · rw [move.height_eq]
    exact seen.below
  · intro v w votedV votedW height round type
    rcases voted_append v |>.mp votedV with oldV | castV <;> rcases voted_append w |>.mp votedW with oldW | castW
    · exact seen.unique v w oldV oldW height round type
    · exact (conflict v w oldV castW height round type).elim
    · exact (conflict w v oldW castV height.symm round.symm type.symm).elim
    · rw [castV, Option.some.injEq] at castW
      rw [castW]
  · intro q member prevote block p votedP precommit height round blockP other
    rcases voted_append p |>.mp votedP with oldP | castP
    · rcases List.mem_append.mp member with new | old
      · have cast : a.cast = some q := by simpa using new
        have unlocked := (justified q cast).unlocked prevote block p.round p.blockHash
        rw [← (justified q cast).height, ← height, ← precommit] at unlocked
        obtain ⟨r, above, known⟩ := unlocked oldP blockP other
        exact ⟨r, above, height ▸ known⟩
      · exact seen.released q old prevote block p oldP precommit height round blockP other
    · exfalso
      have now := (justified p castP).round
      rcases List.mem_append.mp member with new | old
      · rw [(justified q (by simpa using new)).round] at round
        omega
      · have here : q.height = s.height := seen.here q old
        have bound := locks.rounds q.voteType q.round q.blockHash (here ▸ .inr old)
        omega

theorem move (inv : VoteInv s history queued) (move : s.Move a s') :
    VoteInv s' (Node.observe history s') (a.cast.toList ++ queued) := by
  by_cases stopped : Stopped s
  · exact inv.move_stopped move stopped
  · exact inv.move_running move stopped

theorem replay (inv : VoteInv s history queued) (b : BufferedVote) :
    VoteInv (s.replay b).2 (Node.observe history (s.replay b).2) ((s.replay b).1.cast.toList ++ queued) := by
  unfold TendermintState.replay
  split
  · exact inv.move (s.onPrecommit_move _ _ _ _ _)
  · exact inv.move (s.onPrevote_move _ _ _ _ _ inv.pending)

theorem replayAll (votes : List BufferedVote) : ∀ (s : TendermintState) (history : List Observation)
    (queued : List CastVote), VoteInv s history queued →
      VoteInv (s.replayAll votes).2 ((replayStates s votes).foldl Node.observe history)
        ((s.replayAll votes).1.filterMap TendermintAction.cast ++ queued) := by
  induction votes with
  | nil => exact fun s history queued inv => inv
  | cons b votes ih =>
    intro s history queued inv
    have rest := ih _ _ _ (inv.replay b)
    simp only [TendermintState.replayAll, replayStates, foldl_cons]
    refine rest.congr ?_
    intro v
    split <;> rename_i silent
    · cases cast : (s.replay b).1.cast <;> simp [cast, or_comm, or_assoc]
    · simp [not_not.mp silent, TendermintAction.cast]

theorem dropBuffered (inv : VoteInv s history queued) : VoteInv s.dropBuffered history queued :=
  ⟨fun running => { inv.locks running with }, inv.here, inv.below, inv.unique, inv.respected, inv.released⟩

theorem drainBufferedVotes (inv : VoteInv s history queued) :
    VoteInv s.drainBufferedVotes.2 ((drainStates s).foldl Node.observe history)
      (s.drainBufferedVotes.1.filterMap TendermintAction.cast ++ queued) := by
  rw [TendermintState.drainBufferedVotes_eq]
  unfold drainStates
  cases found : s.futureVotes s.round with
  | none => exact inv
  | some votes => exact replayAll votes s.dropBuffered history queued inv.dropBuffered

end VoteInv

section Drain

variable (s : TendermintState)

theorem replay_stopped {b : BufferedVote} (stopped : Stopped s) : Stopped (s.replay b).2 := by
  unfold TendermintState.replay
  split
  · exact ((s.onPrecommit_move _ _ _ _ _).stopped stopped).2.2
  refine ((s.onPrevote_move _ _ _ _ _ ?_).stopped stopped).2.2
  intro step
  rcases stopped with h | h <;> simp [step] at h

variable {height round : Nat}

theorem replay_commit {b : BufferedVote} {hash : Hash}
    (pending : s.step = .prevote → s.precommitted = false) (commit : (s.replay b).1 = .commit height round hash) :
    height = s.height ∧ Stopped (s.replay b).2 := by
  unfold TendermintState.replay at commit ⊢
  split at commit <;> rename_i kind
  · have commits := (s.onPrecommit_move _ _ _ _ _).commits height round hash commit
    simp only [kind, if_true]
    exact ⟨commits.2.1, .inr commits.2.2.2.2⟩
  · have commits := (s.onPrevote_move _ _ _ _ _ pending).commits height round hash commit
    simp only [kind]
    exact ⟨commits.2.1, .inr commits.2.2.2.2⟩

variable (votes : List BufferedVote)

theorem replayAll_height : (s.replayAll votes).2.height = s.height := by
  induction votes generalizing s with
  | nil => rfl
  | cons b votes ih => exact (ih (s.replay b).2).trans (s.replay_position b).1

theorem replayAll_stopped (stopped : Stopped s) : Stopped (s.replayAll votes).2 := by
  induction votes generalizing s with
  | nil => exact stopped
  | cons b votes ih => exact ih _ (replay_stopped s stopped)

theorem drainBufferedVotes_height : s.drainBufferedVotes.2.height = s.height := by
  rw [TendermintState.drainBufferedVotes_eq]
  split
  · rfl
  · exact replayAll_height s.dropBuffered _

theorem drainBufferedVotes_stopped (stopped : Stopped s) : Stopped s.drainBufferedVotes.2 := by
  rw [TendermintState.drainBufferedVotes_eq]
  split
  · exact stopped
  · exact replayAll_stopped s.dropBuffered _ stopped

theorem replayAll_commit {hash : Hash} :
    ∀ (s : TendermintState) (history : List Observation) (queued : List CastVote), VoteInv s history queued →
      .commit height round hash ∈ (s.replayAll votes).1 → height = s.height ∧ Stopped (s.replayAll votes).2 := by
  induction votes with
  | nil => simp [TendermintState.replayAll]
  | cons b votes ih =>
    intro s history queued inv member
    have rest := ih _ _ _ (inv.replay b)
    rw [(s.replay_position b).1] at rest
    simp only [TendermintState.replayAll] at member ⊢
    split at member
    · rcases List.mem_cons.mp member with first | later
      · obtain ⟨here, stopped⟩ := replay_commit s inv.pending first.symm
        exact ⟨here, replayAll_stopped _ votes stopped⟩
      · exact rest later
    · exact rest member

theorem drainBufferedVotes_commit {history : List Observation} {queued : List CastVote}
    {hash : Hash} (inv : VoteInv s history queued) (member : .commit height round hash ∈ s.drainBufferedVotes.1) :
    height = s.height ∧ Stopped s.drainBufferedVotes.2 := by
  rw [TendermintState.drainBufferedVotes_eq] at member ⊢
  cases found : s.futureVotes s.round with
  | none => simp [found] at member
  | some votes =>
    simp only [found] at member ⊢
    exact replayAll_commit votes s.dropBuffered history queued inv.dropBuffered member

end Drain

def Task.votes : Task → List CastVote
  | .send vote => [vote]
  | .execute action => action.cast.toList
  | _ => []

def queuedVotes (todo : List Task) : List CastVote := todo.flatMap Task.votes

def AdvancesLast (height : Nat) (todo : List Task) : Prop :=
  ∀ front h total back, todo = front ++ .advanceHeight h total :: back →
    height < h ∧ back = [] ∧ ∀ t ∈ front, (∃ entry, t = .log entry) ∨ t = .truncate

/-- Every precommit of the current height that was sent, or is about to be, has its round in the buffer for the commit
certificate. -/
def Buffered (node : VotingNode) (todo : List Task) : Prop :=
  ∀ v, .sent v ∈ node.history ∨ .send v ∈ todo → v.height = node.machine.height → v.voteType = .precommit →
    v.round ∈ node.certRounds

structure SafeInv (node : VotingNode) : Prop where
  votes : VoteInv node.machine node.history (queuedVotes node.todo)
  buffered : Buffered node node.todo
  pending : ∀ p, node.pendingCommit = some p → p.height = node.machine.height ∧ Stopped node.machine
  commits : ∀ height round hash, .execute (.commit height round hash) ∈ node.todo →
    height = node.machine.height ∧ Stopped node.machine
  advances : AdvancesLast node.machine.height node.todo

variable {height : Nat}

theorem AdvancesLast.tail {t : Task} {rest : List Task} (last : AdvancesLast height (t :: rest)) :
    AdvancesLast height rest := by
  intro front h total back split
  obtain ⟨above, empty, logs⟩ := last (t :: front) h total back (by rw [split, cons_append])
  exact ⟨above, empty, fun u member => logs u (mem_cons_of_mem t member)⟩

theorem AdvancesLast.of_forall {todo : List Task} (none : ∀ h total, .advanceHeight h total ∉ todo) :
    AdvancesLast height todo := by
  rintro front h total back rfl
  exact absurd (mem_append_right front mem_cons_self) (none h total)

theorem AdvancesLast.not_mem {t : Task} {rest : List Task} (last : AdvancesLast height (t :: rest))
    (log : ∀ entry, t ≠ .log entry) (truncate : t ≠ .truncate) (h total : Nat) : .advanceHeight h total ∉ rest := by
  intro member
  obtain ⟨front, back, rfl⟩ := append_of_mem member
  obtain ⟨-, -, logs⟩ := last (t :: front) h total back (by rw [cons_append])
  rcases logs t mem_cons_self with ⟨entry, same⟩ | same
  · exact log entry same
  · exact truncate same

theorem SafeInv.react (node : VotingNode) {result : TendermintAction × TendermintState} (first rest : List Task)
    (move : node.machine.Move result.1 result.2)
    (votes : VoteInv node.machine node.history (queuedVotes (first ++ rest)))
    (buffered : Buffered node (first ++ rest))
    (pending : ∀ p, node.pendingCommit = some p → p.height = node.machine.height ∧ Stopped node.machine)
    (commits : ∀ height round hash, .execute (.commit height round hash) ∈ first ++ rest →
      height = node.machine.height ∧ Stopped node.machine)
    (advances : ∀ h total, .advanceHeight h total ∉ first ++ rest) : SafeInv (node.react result first rest) where
  votes := by
    refine (votes.move move).congr ?_
    intro v
    simp only [VotingNode.react, queuedVotes, flatMap_append, flatMap_cons, Task.votes, mem_append]
    grind
  buffered := by
    intro v sent height type
    refine buffered v ?_ (height.trans move.height_eq) type
    simpa [VotingNode.react, sent_mem_observe] using sent
  pending := by
    intro p found
    obtain ⟨height, stopped⟩ := pending p found
    exact ⟨height.trans move.height_eq.symm, (move.stopped stopped).2.2⟩
  commits := by
    intro height round hash member
    simp only [VotingNode.react, mem_append, mem_cons, Task.execute.injEq] at member ⊢
    rw [move.height_eq]
    rcases member with old | new | old
    · obtain ⟨here, stopped⟩ := commits height round hash (mem_append_left _ old)
      exact ⟨here, (move.stopped stopped).2.2⟩
    · have commit := move.commits height round hash new.symm
      exact ⟨commit.2.1, .inr commit.2.2.2.2⟩
    · obtain ⟨here, stopped⟩ := commits height round hash (mem_append_right _ old)
      exact ⟨here, (move.stopped stopped).2.2⟩
  advances := by
    refine .of_forall ?_
    intro h total member
    have absent := advances h total
    simp only [VotingNode.react, mem_append, mem_cons, reduceCtorEq, false_or] at member absent
    exact absent member

namespace SafeInv

variable {node : VotingNode}

theorem start (localId : AccountId) (height totalStake : Nat) : SafeInv (.start localId height totalStake) where
  votes :=
    ⟨fun _ => TendermintState.lockInv_new _ _ (by simp [Voted, VotingNode.start, queuedVotes]),
      by simp [queuedVotes, VotingNode.start], by simp [VotingNode.start],
      by simp [Voted, VotingNode.start, queuedVotes], trivial, by simp [queuedVotes, VotingNode.start]⟩
  buffered := by simp [Buffered, VotingNode.start]
  pending := by simp [VotingNode.start]
  commits := by simp [VotingNode.start]
  advances := .of_forall (by simp [VotingNode.start])

theorem fresh {old : TendermintState} {queued : List CastVote} (votes : VoteInv old node.history queued)
    (idle : node.todo = [])
    (clear : node.pendingCommit = none) (above : ∀ v, .sent v ∈ node.history → v.height < node.machine.height)
    (locks : ∀ own : VoteType → Nat → Hash → Prop, (∀ t r h, ¬ own t r h) →
      node.machine.LockInv (fun r h => .quorum node.machine.height r h ∈ node.history) own) : SafeInv node := by
  refine ⟨?_, ?_, by simp [clear], by simp [idle], .of_forall (by simp [idle])⟩
  · rw [idle]
    exact votes.fresh above locks
  · rw [idle]
    rintro v (sent | later) here
    · exact absurd here (above v sent).ne
    · simp at later

theorem buffered_addCertRound {todo : List Task} (buffered : Buffered node todo) (round : Nat) :
    Buffered (node.addCertRound round) todo := by
  intro v sent height type
  have known := buffered v sent height type
  unfold addCertRound
  split
  · exact known
  · exact mem_cons_of_mem _ known

theorem mem_addCertRound (node : VotingNode) (round : Nat) : round ∈ (node.addCertRound round).certRounds := by
  unfold addCertRound
  split
  · assumption
  · exact mem_cons_self

variable {rest : List Task}

theorem buffered_tail {t : Task} (buffered : Buffered node (t :: rest)) : Buffered node rest := by
  intro v sent
  exact buffered v (sent.imp id (mem_cons_of_mem t))

theorem execute {a : TendermintAction} (inv : SafeInv node) (todo : node.todo = .execute a :: rest)
    (localStake : Nat) : SafeInv (node.execute localStake rest a) := by
  have votes := inv.votes
  have buffered := inv.buffered
  have commits := inv.commits
  have advances := inv.advances
  rw [todo] at votes buffered commits advances
  have bufferedRest := buffered_tail buffered
  have commitsRest : ∀ height round hash, .execute (.commit height round hash) ∈ rest →
      height = node.machine.height ∧ Stopped node.machine :=
    fun height round hash member => commits height round hash (mem_cons_of_mem _ member)
  have noAdvance := advances.not_mem (by simp) (by simp)
  cases a with
  | none => exact ⟨votes, bufferedRest, inv.pending, commitsRest, advances.tail⟩
  | broadcastPrevote height round hash =>
    refine SafeInv.react node _ rest (node.machine.onPrevote_move _ _ _ _ _ votes.pending) ?_ ?_ inv.pending ?_ ?_
    · exact votes
    · intro v sent
      refine fun here type => bufferedRest v (sent.imp id fun member => ?_) here type
      simp only [mem_append, mem_cons, not_mem_nil, or_false, Task.send.injEq, reduceCtorEq] at member
      rcases member with rfl | member
      · simp at type
      · exact member
    · simpa using commitsRest
    · simpa using noAdvance
  | broadcastPrecommit height round hash =>
    refine SafeInv.react (node.addCertRound round) _ rest (node.machine.onPrecommit_move _ _ _ _ _) ?_ ?_ inv.pending
      ?_ ?_
    · refine votes.congr fun v => ?_
      split <;> simp [queuedVotes, Task.votes, TendermintAction.cast]
    · rintro v (sent | member) here type
      · exact buffered_addCertRound bufferedRest round v (.inl sent) here type
      · have cases : v = ⟨height, round, .precommit, hash⟩ ∨ .send v ∈ rest := by
          split at member <;> simpa using member
        rcases cases with rfl | later
        · exact mem_addCertRound node round
        · exact buffered_addCertRound bufferedRest round v (.inr later) here type
    · intro h r x member
      refine commitsRest h r x ?_
      split at member <;> simpa using member
    · intro h total member
      refine noAdvance h total ?_
      split at member <;> simpa using member
  | commit height round hash =>
    refine ⟨votes, bufferedRest, ?_, commitsRest, advances.tail⟩
    intro p found
    obtain rfl := Option.some.inj found
    exact commits height round hash mem_cons_self
  | scheduleProposal height round =>
    have height := drainBufferedVotes_height node.machine
    refine ⟨?_, ?_, ?_, ?_, ?_⟩
    · refine (VoteInv.drainBufferedVotes votes).congr fun v => ?_
      simp [queuedVotes, Task.votes, TendermintAction.cast, VotingNode.execute, mem_flatMap, mem_filterMap]
    · intro v sent here type
      refine bufferedRest v ?_ (here.trans height) type
      simpa [VotingNode.execute, sent_mem_foldl_observe] using sent
    · intro p found
      obtain ⟨here, stopped⟩ := inv.pending p found
      exact ⟨here.trans height.symm, drainBufferedVotes_stopped _ stopped⟩
    · intro h r x member
      simp only [VotingNode.execute, mem_append, mem_map, Task.execute.injEq, exists_eq_right] at member ⊢
      rcases member with drained | old
      · obtain ⟨here, stopped⟩ := drainBufferedVotes_commit _ votes drained
        exact ⟨here.trans height.symm, stopped⟩
      · obtain ⟨here, stopped⟩ := commitsRest h r x old
        exact ⟨here.trans height.symm, drainBufferedVotes_stopped _ stopped⟩
    · refine .of_forall fun h total member => noAdvance h total ?_
      simpa [VotingNode.execute] using member

theorem runTask {t : Task} (inv : SafeInv node) (todo : node.todo = t :: rest) (localStake : Nat) :
    SafeInv (node.runTask localStake rest t) := by
  have votes := inv.votes
  have buffered := inv.buffered
  have commits := inv.commits
  have advances := inv.advances
  rw [todo] at votes buffered commits advances
  have bufferedRest := buffered_tail buffered
  have commitsRest : ∀ height round hash, .execute (.commit height round hash) ∈ rest →
      height = node.machine.height ∧ Stopped node.machine :=
    fun height round hash member => commits height round hash (mem_cons_of_mem _ member)
  cases t with
  | send vote =>
    refine ⟨VoteInv.send votes, ?_, inv.pending, commitsRest, advances.tail⟩
    rintro v (sent | later)
    · rcases List.mem_cons.mp sent with same | earlier
      · obtain rfl := Observation.sent.inj same
        exact buffered v (.inr mem_cons_self)
      · exact buffered v (.inl earlier)
    · exact bufferedRest v (.inr later)
  | log entry => exact ⟨votes, bufferedRest, inv.pending, commitsRest, advances.tail⟩
  | truncate => exact ⟨votes, bufferedRest, inv.pending, commitsRest, advances.tail⟩
  | propose height round hash validRound =>
    exact SafeInv.react node [] rest (node.machine.onProposal_move height round hash validRound) votes bufferedRest
      inv.pending commitsRest (advances.not_mem (by simp) (by simp))
  | execute action => exact inv.execute todo localStake
  | advanceHeight height totalStake =>
    obtain ⟨above, rfl, -⟩ := advances [] height totalStake rest rfl
    exact fresh votes rfl rfl (fun v sent => (votes.below v sent).trans_lt above)
      (fun own none => TendermintState.lockInv_new _ _ none)

theorem restart (inv : SafeInv node) (tipSlot totalStake : Nat) (storedBlocks : List Hash)
    (above : ∀ v, .sent v ∈ node.history → v.height ≤ tipSlot) (fits : tipSlot + 1 < 2 ^ 64) :
    SafeInv (node.restart tipSlot totalStake storedBlocks) := by
  have below : ∀ v, .sent v ∈ node.history → v.height < tipSlot + 1 := fun v sent => Nat.lt_succ_of_le (above v sent)
  have plain : ∀ wal, SafeInv { VotingNode.start node.localId (tipSlot + 1) totalStake with
      history := node.history, wal := wal } :=
    fun wal => fresh inv.votes rfl rfl below (fun own none => TendermintState.lockInv_new _ _ none)
  unfold VotingNode.restart u64Add
  dsimp only
  rw [Nat.mod_eq_of_lt fits]
  split
  · split
    · exact fresh inv.votes rfl rfl below (fun own none => TendermintState.lockInv_restoreLock _ _ _ _ none)
    · exact plain _
  · exact plain _

theorem onTimeout_move (s : TendermintState) (pending : s.step = .prevote → s.precommitted = false)
    (bound : s.step = .precommit → s.round + 1 < 2 ^ 32) : s.Move (onTimeout s).1 (onTimeout s).2 := by
  unfold onTimeout
  split <;> rename_i step
  · exact s.onProposeTimeout_move
  · exact s.onPrevoteTimeout_move pending
  · exact s.onPrecommitTimeout_move (fun _ _ => bound step)
  · exact s.onCommitWaitTimeout_move
  · exact .idle s

end SafeInv

def sentVotes (history : List Observation) : List CastVote :=
  history.filterMap fun
    | .sent vote => some vote
    | .quorum _ _ _ => none

theorem mem_sentVotes {history : List Observation} {v : CastVote} (sent : .sent v ∈ history) : v ∈ sentVotes history :=
  List.mem_filterMap.mpr ⟨.sent v, sent, rfl⟩

/-- A restart comes at a height above every vote sent, and no height or round counter wraps. -/
def SafeStep (node : VotingNode) : Event → Prop
  | .crash tipSlot _ _ => (∀ v ∈ sentVotes node.history, v.height ≤ tipSlot) ∧ tipSlot + 1 < 2 ^ 64
  | .committed _ => node.machine.height + 1 < 2 ^ 64
  | .timeout => node.machine.step = .precommit → node.machine.round + 1 < 2 ^ 32
  | _ => True

instance (node : VotingNode) : (event : Event) → Decidable (SafeStep node event)
  | .crash tipSlot _ _ => inferInstanceAs (Decidable ((∀ v ∈ sentVotes node.history, v.height ≤ tipSlot) ∧ _))
  | .committed _ => inferInstanceAs (Decidable (_ < _))
  | .timeout => inferInstanceAs (Decidable (_ → _))
  | .proposalValidated _ _ _ _ => .isTrue trivial
  | .localProposalBuilt _ _ _ _ => .isTrue trivial
  | .prevote _ _ _ _ _ => .isTrue trivial
  | .precommit _ _ _ _ _ => .isTrue trivial
  | .commitCertificate _ _ _ _ => .isTrue trivial
  | .commitFinalized _ => .isTrue trivial
  | .synced _ _ => .isTrue trivial
  | .task _ => .isTrue trivial

namespace SafeInv

variable {node : VotingNode}

theorem forceCommit (inv : SafeInv node) (todo : node.todo = []) (certRounds : List Nat) (round : Nat) (hash : Hash)
    (buffered : Buffered { node with certRounds := certRounds } []) :
    SafeInv { node with
      certRounds := certRounds
      machine := node.machine.forceCommit node.machine.height round hash
      pendingCommit := some ⟨node.machine.height, round, hash⟩ } := by
  have stopped : Stopped (node.machine.forceCommit node.machine.height round hash) := by
    simp [Stopped, TendermintState.forceCommit]
  have same : (node.machine.forceCommit node.machine.height round hash).height = node.machine.height := by
    simp [TendermintState.forceCommit]
  refine ⟨inv.votes.stop same stopped, ?_, ?_, by simp [todo], .of_forall (by simp [todo])⟩
  · rw [todo]
    exact fun v sent here => buffered v sent (here.trans same)
  · intro p found
    obtain rfl := Option.some.inj found
    exact ⟨same.symm, stopped⟩

/-- A commit learned from a certificate is followed by an own precommit, which no vote of the round contradicts. -/
theorem precommitCommitted (inv : SafeInv node) (todo : node.todo = []) {pending : PendingCommitApplication}
    (found : node.pendingCommit = some pending) (absent : pending.round ∉ node.certRounds) :
    SafeInv { ({ node with pendingCommit := none } : VotingNode).addCertRound pending.round with
      todo := [.send ⟨pending.height, pending.round, .precommit, pending.blockHash⟩] } := by
  have votes := inv.votes
  have buffered := inv.buffered
  rw [todo] at votes buffered
  obtain ⟨height, stopped⟩ := inv.pending pending found
  let vote : CastVote := ⟨pending.height, pending.round, .precommit, pending.blockHash⟩
  have conflict : ∀ v, .sent v ∈ node.history → v.height = vote.height → v.round = vote.round →
      v.voteType = vote.voteType → False := by
    intro v sent here round type
    have known := buffered v (.inl sent) (here.trans height) type
    rw [round] at known
    exact absent known
  refine ⟨⟨fun running => absurd stopped running, ?_, votes.below, ?_, votes.respected, ?_⟩, ?_, by simp, by simp,
    .of_forall (by simp)⟩
  · simpa [queuedVotes, Task.votes] using height
  · intro v w votedV votedW here round type
    simp only [Voted, queuedVotes, flatMap_cons, flatMap_nil, Task.votes, append_nil, mem_singleton] at votedV votedW
    rcases votedV with sentV | rfl <;> rcases votedW with sentW | rfl
    · exact votes.unique v w (.inl sentV) (.inl sentW) here round type
    · exact (conflict v sentV here round type).elim
    · exact (conflict w sentW here.symm round.symm type.symm).elim
    · rfl
  · simp [queuedVotes, Task.votes, Released]
  · rintro v (sent | member) here type
    · exact buffered_addCertRound buffered pending.round v (.inl sent) here type
    · obtain rfl : v = vote := by simpa using member
      exact mem_addCertRound _ pending.round

theorem handle (inv : SafeInv node) (todo : node.todo = []) (event : Event) (safe : SafeStep node event) :
    SafeInv (node.handle event) := by
  have votes := inv.votes
  have buffered := inv.buffered
  rw [todo] at votes buffered
  have react : ∀ {result : TendermintAction × TendermintState} {certRounds : List Nat},
      node.machine.Move result.1 result.2 → Buffered { node with certRounds := certRounds } [] →
      SafeInv (VotingNode.react { node with certRounds := certRounds } result [] []) :=
    fun move buffered => SafeInv.react _ [] [] move votes buffered inv.pending (by simp) (by simp)
  cases event with
  | proposalValidated height round hash validRound =>
    simp only [VotingNode.handle]
    split
    · exact inv
    · refine ⟨votes, ?_, inv.pending, by simp, .of_forall (by simp)⟩
      exact fun v sent => buffered v (by simpa using sent)
  | localProposalBuilt height round hash isProposer =>
    simp only [VotingNode.handle]
    split
    · refine ⟨votes, ?_, inv.pending, by simp, .of_forall (by simp)⟩
      exact fun v sent => buffered v (by simpa using sent)
    · exact inv
  | prevote height round hash voter stake =>
    simp only [VotingNode.handle]
    split
    · exact inv
    · exact react (node.machine.onPrevote_move _ _ _ _ _ votes.pending) buffered
  | precommit height round hash voter stake =>
    simp only [VotingNode.handle]
    split
    · exact inv
    split
    · exact react (node.machine.onPrecommit_move _ _ _ _ _) (buffered_addCertRound buffered round)
    · exact react (node.machine.onPrecommit_move _ _ _ _ _) buffered
  | timeout => exact react (onTimeout_move _ votes.pending safe) buffered
  | commitCertificate height round hash listsLocal =>
    simp only [VotingNode.handle]
    split <;> rename_i heights
    · exact inv
    · split
      · exact inv
      split
      · exact inv
      obtain rfl : height = node.machine.height := by simpa using heights
      cases listsLocal
      · exact inv.forceCommit todo _ round hash buffered
      · exact inv.forceCommit todo _ round hash (buffered_addCertRound buffered round)
  | commitFinalized applied =>
    simp only [VotingNode.handle]
    split <;> rename_i found
    · exact inv
    split
    · exact ⟨inv.votes, inv.buffered, by simp, inv.commits, inv.advances⟩
    split <;> rename_i absent
    · exact ⟨inv.votes, inv.buffered, by simp, inv.commits, inv.advances⟩
    · exact inv.precommitCommitted todo found absent
  | committed totalStake =>
    simp only [VotingNode.handle]
    split
    · refine ⟨votes, ?_, inv.pending, by simp, ?_⟩
      · exact fun v sent => buffered v (by simpa using sent)
      · intro front h total back split
        rcases front with _ | ⟨a, _ | ⟨b, _ | ⟨c, front⟩⟩⟩ <;> simp at split
        obtain ⟨rfl, rfl, ⟨rfl, rfl⟩, rfl⟩ := split
        have next : u64Add node.machine.height 1 = node.machine.height + 1 := Nat.mod_eq_of_lt safe
        simp [next]
    · exact inv
  | synced blockSlot totalStake =>
    simp only [VotingNode.handle]
    split <;> rename_i below
    · exact inv
    · have above : ∀ v, .sent v ∈ node.history → v.height < u64SatAdd blockSlot 1 := by
        intro v sent
        have := votes.below v sent
        omega
      exact fresh votes todo rfl above (fun own none => TendermintState.lockInv_new _ _ none)
  | task => exact inv
  | crash => exact inv

theorem step (inv : SafeInv node) (event : Event) (safe : SafeStep node event) : SafeInv (node.step event) := by
  unfold VotingNode.step
  split
  · exact inv.restart _ _ _ (fun v sent => safe.1 v (mem_sentVotes sent)) safe.2
  · exact inv.runTask ‹_› _
  · exact inv.handle ‹_› _ safe
  · exact inv

end SafeInv

/-- A validator votes once per height, round and type and keeps its locks, over any number of crashes, as long as every
restart comes above the heights it has voted at. -/
theorem voting_crash_safe (localId : AccountId) (height totalStake : Nat) (events : List Event)
    (safe : Lib.Meets step SafeStep (.start localId height totalStake) events) :
    VotesUnique ((start localId height totalStake).run events).history ∧
      LocksRespected ((start localId height totalStake).run events).history := by
  have inv : SafeInv ((start localId height totalStake).run events) :=
    Lib.run_invariant (fun node event _ inv safe => inv.step event safe) (.start localId height totalStake) safe
  exact ⟨fun v w sentV sentW => inv.votes.unique v w (.inl sentV) (.inl sentW), inv.votes.respected⟩

def voteFor (height : Nat) (blockHash : Hash) : List Event :=
  .proposalValidated height 0 blockHash none :: List.replicate 6 (.task 100)

theorem voting_crash_safe_after_sync :
    sentVotes ((start ⟨1⟩ 1 300).run (voteFor 1 5 ++ [.synced 1 300, .crash 1 300 [5]] ++ voteFor 2 9)).history =
        [⟨2, 0, .prevote, 9⟩, ⟨1, 0, .prevote, 5⟩] ∧
      VotesUnique
        ((start ⟨1⟩ 1 300).run (voteFor 1 5 ++ [.synced 1 300, .crash 1 300 [5]] ++ voteFor 2 9)).history :=
  ⟨by decide, (voting_crash_safe ⟨1⟩ 1 300 _ (by decide)).1⟩

/-- The prevote is on disk when the node crashes, yet the restarted node prevotes another block in the same round. -/
theorem crash_double_prevote :
    ((start ⟨1⟩ 1 300).run (voteFor 1 5)).wal = [.proposal 1 0 5, .prevote 1 0 5] ∧
      ¬ VotesUnique ((start ⟨1⟩ 1 300).run (voteFor 1 5 ++ [.crash 0 300 []] ++ voteFor 1 9)).history := by
  refine ⟨by decide, fun unique => ?_⟩
  have clash := unique ⟨1, 0, .prevote, 5⟩ ⟨1, 0, .prevote, 9⟩ (by decide) (by decide) rfl rfl rfl
  exact absurd clash (by decide)

end AceChain.Node
