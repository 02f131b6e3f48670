import AceChain.Consensus.VoteIntake

namespace AceChain.Consensus

structure CastVote where
  height : Nat
  round : Nat
  voteType : VoteType
  blockHash : Hash
deriving DecidableEq

def TendermintAction.cast : TendermintAction → Option CastVote
  | .broadcastPrevote height round blockHash => some ⟨height, round, .prevote, blockHash⟩
  | .broadcastPrecommit height round blockHash => some ⟨height, round, .precommit, blockHash⟩
  | _ => Option.none

namespace TendermintState

def Records (s s' : TendermintState) : Prop :=
  ∀ r h, s'.pastQuorums r h = true →
    s.pastQuorums r h = true ∨ (r = s.round ∧ h ≠ nilBlockHash ∧ s'.prevotes.quorumBlockHash = some h)

variable (s : TendermintState)

def Permits (hash : Hash) : Prop :=
  s.lockedHash = none ∨ s.lockedHash = some hash ∨
    ∃ lr vr, s.lockedRound = some lr ∧ lr ≤ vr ∧ s.pastQuorums vr hash = true

def Commits (a : TendermintAction) (s' : TendermintState) : Prop :=
  ∀ height round hash, a = .commit height round hash → hash ≠ nilBlockHash ∧ height = s.height ∧ round = s.round ∧
    s'.precommits.quorumBlockHash = some hash ∧ s'.step = .commitWait

inductive Move (s : TendermintState) : TendermintAction → TendermintState → Prop where
  | stay {a : TendermintAction} {s' : TendermintState} (silent : a.cast = none) (commits : Commits s a s')
      (height : s'.height = s.height) (round : s'.round = s.round) (lockedRound : s'.lockedRound = s.lockedRound)
      (lockedHash : s'.lockedHash = s.lockedHash) (prevoted : s'.prevoted = s.prevoted)
      (precommitted : s'.precommitted = s.precommitted)
      (step : s'.step = s.step ∨ s'.step = .commitWait ∨ s'.step = .committed) (records : Records s s') : Move s a s'
  | prevote {hash : Hash} {s' : TendermintState} (height : s'.height = s.height) (round : s'.round = s.round)
      (lockedRound : s'.lockedRound = s.lockedRound) (lockedHash : s'.lockedHash = s.lockedHash)
      (before : s.prevoted = false) (prevoted : s'.prevoted = true) (precommitted : s'.precommitted = s.precommitted)
      (start : s.step = .propose) (step : s'.step = .prevote) (permits : hash ≠ nilBlockHash → s'.Permits hash)
      (records : Records s s') : Move s (.broadcastPrevote s.height s.round hash) s'
  | precommit {hash : Hash} {s' : TendermintState} (height : s'.height = s.height) (round : s'.round = s.round)
      (locks : hash = nilBlockHash ∧ s'.lockedRound = s.lockedRound ∧ s'.lockedHash = s.lockedHash ∨
        hash ≠ nilBlockHash ∧ s'.lockedRound = some s.round ∧ s'.lockedHash = some hash ∧
          s'.prevotes.quorumBlockHash = some hash)
      (prevoted : s'.prevoted = s.prevoted) (precommitted : s'.precommitted = true) (start : s.step = .prevote)
      (step : s'.step = .precommit) (records : Records s s') : Move s (.broadcastPrecommit s.height s.round hash) s'
  | advance {s' : TendermintState} (bound : s.round + 1 < 2 ^ 32)
      (running : ¬ (s.step = .committed ∨ s.step = .commitWait)) (height : s'.height = s.height)
      (round : s'.round = s.round + 1) (lockedRound : s'.lockedRound = s.lockedRound)
      (lockedHash : s'.lockedHash = s.lockedHash) (precommitted : s'.precommitted = false)
      (empty : s'.prevotes.quorumBlockHash = none) (records : Records s s') :
        Move s (.scheduleProposal s.height (s.round + 1)) s'

def voting : Nat × Nat × RoundStep × Option Nat × Option Hash × Bool × Bool :=
  (s.height, s.round, s.step, s.lockedRound, s.lockedHash, s.prevoted, s.precommitted)

variable {s s' : TendermintState}

theorem Records.of_eq (same : s'.pastQuorums = s.pastQuorums) : Records s s' := by
  intro r h recorded
  exact .inl (same ▸ recorded)

theorem Commits.none (s s' : TendermintState) : Commits s .none s' := by
  intro height round hash action
  cases action

theorem Move.idle (s : TendermintState) : Move s .none s :=
  .stay rfl (.none s s) rfl rfl rfl rfl rfl rfl (.inl rfl) (.of_eq rfl)

variable {a : TendermintAction}

section

variable (move : Move s a s')

include move

theorem Move.records : Records s s' := by
  cases move <;> assumption

theorem Move.commits : Commits s a s' := by
  cases move with
  | stay silent commits => exact commits
  | prevote => intro height round hash action; cases action
  | precommit => intro height round hash action; cases action
  | advance => intro height round hash action; cases action

theorem Move.round_eq_or_empty :
    s'.round = s.round ∨ s'.prevotes.quorumBlockHash = none := by
  cases move with
  | stay _ _ _ round => exact .inl round
  | prevote _ round => exact .inl round
  | precommit _ round => exact .inl round
  | advance _ _ _ _ _ _ _ empty => exact .inr empty

theorem Move.stopped
    (stopped : s.step = .committed ∨ s.step = .commitWait) :
    a.cast = none ∧ s'.height = s.height ∧ (s'.step = .committed ∨ s'.step = .commitWait) := by
  cases move with
  | stay silent _ height _ _ _ _ _ step =>
    refine ⟨silent, height, ?_⟩
    rcases step with step | step | step
    · exact step ▸ stopped
    · exact .inr step
    · exact .inl step
  | prevote _ _ _ _ _ _ _ start => rcases stopped with h | h <;> simp [start] at h
  | precommit _ _ _ _ _ start => rcases stopped with h | h <;> simp [start] at h
  | advance _ running => exact absurd stopped running

theorem Move.height_eq : s'.height = s.height := by
  cases move <;> assumption

end

theorem Move.after {t : TendermintState} (move : Move t a s') (same : t.voting = s.voting)
    (records : Records s s') : Move s a s' := by
  simp only [voting, Prod.mk.injEq] at same
  obtain ⟨sameHeight, sameRound, sameStep, sameLockedRound, sameLockedHash, samePrevoted, samePrecommitted⟩ := same
  cases move with
  | stay silent commits height round lockedRound lockedHash prevoted precommitted step _ =>
    unfold Commits at commits
    rw [sameHeight, sameRound] at commits
    rw [sameHeight] at height
    rw [sameRound] at round
    rw [sameLockedRound] at lockedRound
    rw [sameLockedHash] at lockedHash
    rw [samePrevoted] at prevoted
    rw [samePrecommitted] at precommitted
    rw [sameStep] at step
    exact .stay silent commits height round lockedRound lockedHash prevoted precommitted step records
  | prevote height round lockedRound lockedHash before prevoted precommitted start step permits _ =>
    rw [sameHeight] at height ⊢
    rw [sameRound] at round ⊢
    rw [sameLockedRound] at lockedRound
    rw [sameLockedHash] at lockedHash
    rw [samePrevoted] at before
    rw [samePrecommitted] at precommitted
    rw [sameStep] at start
    exact .prevote height round lockedRound lockedHash before prevoted precommitted start step permits records
  | precommit height round locks prevoted precommitted start step _ =>
    rw [sameHeight] at height ⊢
    rw [sameRound] at round locks ⊢
    rw [sameLockedRound, sameLockedHash] at locks
    rw [samePrevoted] at prevoted
    rw [sameStep] at start
    exact .precommit height round locks prevoted precommitted start step records
  | advance bound running height round lockedRound lockedHash precommitted empty _ =>
    rw [sameStep] at running
    rw [sameHeight] at height ⊢
    rw [sameRound] at bound round ⊢
    rw [sameLockedRound] at lockedRound
    rw [sameLockedHash] at lockedHash
    exact .advance bound running height round lockedRound lockedHash precommitted empty records

variable (s : TendermintState) (hash : Hash)

theorem doPrevote_move (start : s.step = .propose)
    (permits : hash ≠ nilBlockHash → s.Permits hash) : Move s (s.doPrevote hash).1 (s.doPrevote hash).2 := by
  unfold doPrevote
  split <;> rename_i before
  · exact .idle s
  · exact .prevote rfl rfl rfl rfl (by simpa using before) rfl rfl start (by simp) permits (.of_eq rfl)

theorem doPrevote_pastQuorums :
    (s.doPrevote hash).2.pastQuorums = s.pastQuorums := by
  unfold doPrevote
  split <;> rfl

theorem prevoteChoice_permits (validRound : Option Nat) :
    s.prevoteChoice hash validRound ≠ nilBlockHash → s.Permits (s.prevoteChoice hash validRound) := by
  unfold prevoteChoice Permits
  intro chosen
  split at chosen <;> rename_i locked
  · split at chosen <;> rename_i same
    · subst same
      simp [locked]
    · split at chosen
      · rename_i vr lr lockedAt
        split at chosen <;> rename_i later
        · split at chosen <;> rename_i recorded
          · simp only [same, if_false, lockedAt, later, if_true, recorded]
            exact .inr (.inr ⟨lr, vr, rfl, later, recorded⟩)
          · exact absurd rfl chosen
        · exact absurd rfl chosen
      · exact absurd rfl chosen
  · exact .inl locked

variable (height round : Nat)

theorem onProposal_move (hash : Hash) (validRound : Option Nat) :
    Move s (s.onProposal height round hash validRound).1 (s.onProposal height round hash validRound).2 := by
  unfold onProposal
  split
  · exact .idle s
  split
  · exact .idle s
  split <;> rename_i start
  · exact .idle s
  · have start : s.step = .propose := by simpa using start
    let t := { s with proposalHash := some hash, proposalReceived := true }
    have move := doPrevote_move t _ start (prevoteChoice_permits t hash validRound)
    exact move.after rfl (.of_eq (doPrevote_pastQuorums t _))

theorem prevoteProposal_move : Move s s.prevoteProposal.1 s.prevoteProposal.2 := by
  unfold prevoteProposal
  dsimp only
  split <;> rename_i ready
  · split <;> rename_i locked
    · split <;> rename_i same
      · exact doPrevote_move s _ ready.1 (fun other => absurd rfl other)
      · refine doPrevote_move s _ ready.1 (fun _ => .inr (.inl ?_))
        rw [locked, not_not.mp same]
    · exact doPrevote_move s _ ready.1 (fun _ => .inl locked)
  · exact .idle s

theorem prevoteProposal_pastQuorums : s.prevoteProposal.2.pastQuorums = s.pastQuorums := by
  unfold prevoteProposal
  dsimp only
  split
  · split
    · split <;> exact doPrevote_pastQuorums s _
    · exact doPrevote_pastQuorums s _
  · rfl

theorem doPrecommit_move (s t : TendermintState) (hash : Hash) (start : s.step = .prevote)
    (pending : s.precommitted = false) (same : { t with
      step := s.step, lockedRound := s.lockedRound, lockedHash := s.lockedHash : TendermintState }.voting = s.voting)
    (step : t.step = .precommit)
    (locks : hash = nilBlockHash ∧ t.lockedRound = s.lockedRound ∧ t.lockedHash = s.lockedHash ∨
      hash ≠ nilBlockHash ∧ t.lockedRound = some s.round ∧ t.lockedHash = some hash ∧
        t.prevotes.quorumBlockHash = some hash)
    (records : Records s t) : Move s (t.doPrecommit hash).1 (t.doPrecommit hash).2 := by
  simp only [voting, Prod.mk.injEq, true_and] at same
  obtain ⟨height, round, prevoted, precommitted⟩ := same
  have action : TendermintAction.broadcastPrecommit t.height t.round hash = .broadcastPrecommit s.height s.round hash := by
    rw [height, round]
  unfold doPrecommit
  rw [if_neg (by simp [precommitted, pending]), action]
  exact .precommit height round locks prevoted rfl start step records

theorem afterPrevote_move (pending : s.step = .prevote → s.precommitted = false) :
    Move s s.afterPrevote.1 s.afterPrevote.2 := by
  unfold afterPrevote
  dsimp only
  split <;> rename_i quorum
  · rename_i hash
    split <;> rename_i block
    · let t := { s with
        pastQuorums := Function.update s.pastQuorums s.round (Function.update (s.pastQuorums s.round) hash true)
        validRound := some s.round
        validHash := some hash }
      have records : Records s t := by
        intro r h recorded
        by_cases sameRound : r = s.round
        · subst sameRound
          by_cases sameHash : h = hash
          · subst sameHash
            exact .inr ⟨rfl, block, quorum⟩
          · simp only [t, Function.update_self, Function.update_of_ne sameHash] at recorded
            exact .inl recorded
        · simp only [t, Function.update_of_ne sameRound] at recorded
          exact .inl recorded
      split <;> rename_i step
      · exact doPrecommit_move s _ hash step (pending step) rfl rfl (.inr ⟨block, rfl, rfl, quorum⟩) records
      · refine (prevoteProposal_move t).after rfl ?_
        intro r h recorded
        rw [prevoteProposal_pastQuorums] at recorded
        rw [(prevoteProposal_quiet t).prevotes]
        exact records r h recorded
    · split <;> rename_i step
      · exact doPrecommit_move s _ nilBlockHash step (pending step) rfl rfl (.inl ⟨rfl, rfl, rfl⟩) (.of_eq rfl)
      · exact prevoteProposal_move s
  · exact prevoteProposal_move s

theorem onPrevote_move (hash : Hash) (voter : AccountId) (stake : Nat)
    (pending : s.step = .prevote → s.precommitted = false) :
    Move s (s.onPrevote height round hash voter stake).1 (s.onPrevote height round hash voter stake).2 := by
  unfold onPrevote
  split
  · exact .idle s
  split
  · exact .stay rfl (.none _ _) rfl rfl rfl rfl rfl rfl (.inl rfl) (.of_eq rfl)
  split
  · exact .idle s
  split
  · exact .idle s
  · let t := { s with prevotes := (s.prevotes.addVoteRaw voter hash stake).2 }
    exact (afterPrevote_move t pending).after rfl (afterPrevote_move t pending).records

theorem afterPrecommit_move : Move s s.afterPrecommit.1 s.afterPrecommit.2 := by
  unfold afterPrecommit
  split <;> rename_i quorum
  · split <;> rename_i block
    · refine .stay rfl ?_ rfl rfl rfl rfl rfl rfl (.inr (.inl rfl)) (.of_eq rfl)
      intro height round hash action
      obtain ⟨rfl, rfl, rfl⟩ := TendermintAction.commit.inj action
      exact ⟨block, rfl, rfl, quorum, rfl⟩
    · exact .idle s
  · exact .idle s

theorem onPrecommit_move (hash : Hash) (voter : AccountId) (stake : Nat) :
    Move s (s.onPrecommit height round hash voter stake).1 (s.onPrecommit height round hash voter stake).2 := by
  unfold onPrecommit
  split
  · exact .idle s
  split
  · exact .stay rfl (.none _ _) rfl rfl rfl rfl rfl rfl (.inl rfl) (.of_eq rfl)
  split
  · exact .idle s
  split
  · exact .idle s
  split
  · exact .stay rfl (.none _ _) rfl rfl rfl rfl rfl rfl (.inl rfl) (.of_eq rfl)
  · let t := { s with precommits := (s.precommits.addVoteRaw voter hash stake).2 }
    exact (afterPrecommit_move t).after rfl (afterPrecommit_move t).records

theorem onProposeTimeout_move : Move s s.onProposeTimeout.1 s.onProposeTimeout.2 := by
  unfold onProposeTimeout
  split <;> rename_i start
  · exact .idle s
  · exact doPrevote_move s _ (by simpa using start) (fun other => absurd rfl other)

theorem onPrevoteTimeout_move (pending : s.step = .prevote → s.precommitted = false) :
    Move s s.onPrevoteTimeout.1 s.onPrevoteTimeout.2 := by
  unfold onPrevoteTimeout
  split <;> rename_i start
  · exact .idle s
  · have start : s.step = .prevote := by simpa using start
    exact doPrecommit_move s _ nilBlockHash start (pending start) rfl rfl (.inl ⟨rfl, rfl, rfl⟩) (.of_eq rfl)

theorem onPrecommitTimeout_move
    (bound : s.step ≠ .committed → s.step ≠ .commitWait → s.round + 1 < 2 ^ 32) :
    Move s s.onPrecommitTimeout.1 s.onPrecommitTimeout.2 := by
  unfold onPrecommitTimeout
  split <;> rename_i running
  · exact .idle s
  · have bound := bound (fun h => running (.inl h)) (fun h => running (.inr h))
    rw [u32Add_one_of_lt s.round bound]
    exact .advance bound running rfl rfl rfl rfl rfl rfl (.of_eq rfl)

theorem onCommitWaitTimeout_move : Move s s.onCommitWaitTimeout.1 s.onCommitWaitTimeout.2 := by
  unfold onCommitWaitTimeout
  split
  · exact .stay rfl (.none _ _) rfl rfl rfl rfl rfl rfl (.inr (.inr rfl)) (.of_eq rfl)
  · exact .idle s

/-- The locking discipline: `seen` are the prevote quorums the machine may rely on, `own` the votes it has cast at its
height. A lock restored after a crash is not relied on until the machine has precommitted a block itself. -/
structure LockInv (s : TendermintState) (seen : Nat → Hash → Prop) (own : VoteType → Nat → Hash → Prop) : Prop where
  recorded : ∀ r h, s.pastQuorums r h = true → seen r h
  locked : ∀ h, s.lockedHash = some h → (∃ r x, own .precommit r x ∧ x ≠ nilBlockHash) →
    ∃ r, s.lockedRound = some r ∧ seen r h
  rounds : ∀ t r h, own t r h → r ≤ s.round
  prevoted : ∀ h, own .prevote s.round h → s.prevoted = true
  precommitted : ∀ h, own .precommit s.round h → s.precommitted = true
  keepsLock : ∀ r h, own .precommit r h → h ≠ nilBlockHash →
    ∃ lr lh, s.lockedRound = some lr ∧ s.lockedHash = some lh ∧ r ≤ lr ∧ (r = lr → lh = h)
  pending : s.step = .propose ∨ s.step = .prevote → s.precommitted = false

structure Justified (s : TendermintState) (seen : Nat → Hash → Prop) (own : VoteType → Nat → Hash → Prop)
    (vote : CastVote) : Prop where
  height : vote.height = s.height
  round : vote.round = s.round
  fresh : ∀ h, ¬ own vote.voteType vote.round h
  supported : vote.voteType = .precommit → vote.blockHash ≠ nilBlockHash → seen vote.round vote.blockHash
  unlocked : vote.voteType = .prevote → vote.blockHash ≠ nilBlockHash → ∀ r h, own .precommit r h →
    h ≠ nilBlockHash → h ≠ vote.blockHash → ∃ vr, r ≤ vr ∧ seen vr vote.blockHash

section Discipline

variable {s s' : TendermintState} {a : TendermintAction} {seen : Nat → Hash → Prop} {own : VoteType → Nat → Hash → Prop}

theorem LockInv.of_none (records : ∀ r h, s.pastQuorums r h = false) (pending : s.precommitted = false)
    (none : ∀ t r h, ¬ own t r h) : s.LockInv seen own where
  recorded r h recorded := by
    rw [records r h] at recorded
    cases recorded
  locked := fun _ _ ⟨r, h, cast, _⟩ => absurd cast (none _ r h)
  rounds := fun t r h cast => absurd cast (none t r h)
  prevoted := fun h cast => absurd cast (none _ _ h)
  precommitted := fun h cast => absurd cast (none _ _ h)
  keepsLock := fun r h cast => absurd cast (none _ r h)
  pending := fun _ => pending

theorem lockInv_new (height totalStake : Nat) : (∀ t r h, ¬ own t r h) → (new height totalStake).LockInv seen own :=
  .of_none (fun _ _ => rfl) rfl

theorem lockInv_restoreLock (height totalStake round : Nat) (hash : Hash) :
    (∀ t r h, ¬ own t r h) → ((new height totalStake).restoreLock round hash).LockInv seen own :=
  .of_none (fun _ _ => rfl) rfl

section

variable (inv : s.LockInv seen own)

include inv

theorem LockInv.records (records : Records s s')
    (quorum : ∀ h, h ≠ nilBlockHash → s'.prevotes.quorumBlockHash = some h → seen s.round h) :
    ∀ r h, s'.pastQuorums r h = true → seen r h := by
  intro r h recorded
  rcases records r h recorded with old | ⟨rfl, block, reached⟩
  · exact inv.recorded r h old
  · exact quorum h block reached

theorem LockInv.justified (move : Move s a s')
    (quorum : ∀ h, h ≠ nilBlockHash → s'.prevotes.quorumBlockHash = some h → seen s.round h) {vote : CastVote}
    (cast : a.cast = some vote) : s.Justified seen own vote := by
  have recorded := inv.records move.records quorum
  cases move with
  | stay silent => simp [silent] at cast
  | prevote height round lockedRound lockedHash before prevoted precommitted start step permits _ =>
    obtain rfl := Option.some.inj cast
    refine ⟨rfl, rfl, ?_, by simp, ?_⟩
    · intro h own
      simp [inv.prevoted h own] at before
    · intro _ block r h own blockH other
      obtain ⟨lr, lh, lockedAt, lockedOn, above, same⟩ := inv.keepsLock r h own blockH
      rcases permits block with free | on | ⟨lr', vr, at', later, known⟩
      · rw [lockedHash, lockedOn] at free
        simp at free
      · rw [lockedHash] at on
        obtain ⟨lr', at', known⟩ := inv.locked _ on ⟨r, h, own, blockH⟩
        obtain rfl : lr = lr' := by simpa [lockedAt] using at'
        exact ⟨lr, above, known⟩
      · rw [lockedRound, lockedAt, Option.some.injEq] at at'
        subst at'
        exact ⟨vr, above.trans later, recorded vr _ known⟩
  | precommit height round locks prevoted precommitted start step _ =>
    obtain rfl := Option.some.inj cast
    refine ⟨rfl, rfl, ?_, ?_, by simp⟩
    · intro h own
      have sent := inv.precommitted h own
      simp [inv.pending (.inr start)] at sent
    · intro _ block
      rcases locks with ⟨rfl, -⟩ | ⟨-, -, -, reached⟩
      · exact absurd rfl block
      · exact quorum _ block reached
  | advance => simp [TendermintAction.cast] at cast

theorem LockInv.move (move : Move s a s')
    (quorum : ∀ h, h ≠ nilBlockHash → s'.prevotes.quorumBlockHash = some h → seen s.round h) :
    s'.LockInv seen (fun t r h => own t r h ∨ a.cast = some ⟨s.height, r, t, h⟩) := by
  have recorded := inv.records move.records quorum
  cases move with
  | stay silent commits height round lockedRound lockedHash prevoted precommitted step _ =>
    simp only [silent, reduceCtorEq, or_false]
    refine ⟨recorded, ?_, ?_, ?_, ?_, ?_, ?_⟩
    · rw [lockedHash, lockedRound]
      exact inv.locked
    · rw [round]
      exact inv.rounds
    · rw [round, prevoted]
      exact inv.prevoted
    · rw [round, precommitted]
      exact inv.precommitted
    · rw [lockedHash, lockedRound]
      exact inv.keepsLock
    · rw [precommitted]
      rcases step with step | step | step <;> rw [step]
      · exact inv.pending
      · simp
      · simp
  | @prevote hash _ height round lockedRound lockedHash before prevoted precommitted start step permits _ =>
    simp only [TendermintAction.cast, Option.some.injEq, CastVote.mk.injEq, true_and]
    refine ⟨recorded, ?_, ?_, fun _ _ => prevoted, ?_, ?_, ?_⟩
    · rw [lockedHash, lockedRound]
      rintro h on ⟨r, x, old | ⟨-, mismatch, -⟩, block⟩
      · exact inv.locked h on ⟨r, x, old, block⟩
      · simp at mismatch
    · rintro t r h (old | ⟨rfl, -⟩)
      · exact round ▸ inv.rounds t r h old
      · exact round.ge
    · rintro h (old | ⟨-, mismatch, -⟩)
      · rw [round] at old
        exact precommitted ▸ inv.precommitted h old
      · simp at mismatch
    · rintro r h (old | ⟨-, mismatch, -⟩)
      · rw [lockedHash, lockedRound]
        exact inv.keepsLock r h old
      · simp at mismatch
    · intro _
      rw [precommitted]
      exact inv.pending (.inl start)
  | @precommit hash _ height round locks prevoted precommitted start step _ =>
    simp only [TendermintAction.cast, Option.some.injEq, CastVote.mk.injEq, true_and]
    refine ⟨recorded, ?_, ?_, ?_, fun _ _ => precommitted, ?_, by simp [step]⟩
    · rcases locks with ⟨rfl, lockedRound, lockedHash⟩ | ⟨block, lockedRound, lockedHash, reached⟩
      · rw [lockedHash, lockedRound]
        rintro h on ⟨r, x, old | ⟨-, -, rfl⟩, block⟩
        · exact inv.locked h on ⟨r, x, old, block⟩
        · exact absurd rfl block
      · intro h on _
        obtain rfl : hash = h := by simpa [lockedHash] using on
        exact ⟨s.round, lockedRound, quorum hash block reached⟩
    · rintro t r h (old | ⟨rfl, -⟩)
      · exact round ▸ inv.rounds t r h old
      · exact round.ge
    · rintro h (old | ⟨-, mismatch, -⟩)
      · rw [round] at old
        exact prevoted ▸ inv.prevoted h old
      · simp at mismatch
    · rcases locks with ⟨rfl, lockedRound, lockedHash⟩ | ⟨block, lockedRound, lockedHash, reached⟩
      · rintro r h (old | ⟨-, -, rfl⟩) block
        · rw [lockedHash, lockedRound]
          exact inv.keepsLock r h old block
        · exact absurd rfl block
      · rintro r h (old | ⟨rfl, -, rfl⟩) blockH
        · refine ⟨s.round, hash, lockedRound, lockedHash, inv.rounds _ r h old, ?_⟩
          rintro rfl
          have sent := inv.precommitted h old
          simp [inv.pending (.inr start)] at sent
        · exact ⟨s.round, hash, lockedRound, lockedHash, le_rfl, fun _ => rfl⟩
  | advance bound running height round lockedRound lockedHash precommitted empty _ =>
    simp only [TendermintAction.cast, reduceCtorEq, or_false]
    have stale : ∀ t h, ¬ own t s'.round h := by
      intro t h old
      have := inv.rounds t _ h old
      omega
    refine ⟨recorded, ?_, ?_, fun h old => absurd old (stale _ h), fun h old => absurd old (stale _ h), ?_,
      fun _ => precommitted⟩
    · rw [lockedHash, lockedRound]
      exact inv.locked
    · intro t r h old
      have := inv.rounds t r h old
      omega
    · rw [lockedHash, lockedRound]
      exact inv.keepsLock

theorem LockInv.weaken {seen' : Nat → Hash → Prop} (more : ∀ r h, seen r h → seen' r h) :
    s.LockInv seen' own :=
  { inv with
    recorded := fun r h known => more r h (inv.recorded r h known)
    locked := fun h on cast =>
      let ⟨r, lockedAt, known⟩ := inv.locked h on cast
      ⟨r, lockedAt, more r h known⟩ }

end

end Discipline

end TendermintState

end AceChain.Consensus
