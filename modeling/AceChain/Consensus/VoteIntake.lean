import AceChain.Consensus.Tendermint

namespace AceChain.Consensus

open Function

namespace TendermintState

structure Quiet (s s' : TendermintState) : Prop where
  height : s'.height = s.height
  round : s'.round = s.round
  totalStake : s'.totalStake = s.totalStake
  prevotes : s'.prevotes = s.prevotes
  precommits : s'.precommits = s.precommits
  futureVotes : s'.futureVotes = s.futureVotes
  stopped : s.step = .commitWait ∨ s.step = .committed → s'.step = .commitWait ∨ s'.step = .committed

theorem Quiet.rfl {s : TendermintState} : Quiet s s := ⟨.refl _, .refl _, .refl _, .refl _, .refl _, .refl _, id⟩

theorem Quiet.trans {s s' s'' : TendermintState} (first : Quiet s s') (second : Quiet s' s'') : Quiet s s'' :=
  ⟨second.height.trans first.height, second.round.trans first.round, second.totalStake.trans first.totalStake,
    second.prevotes.trans first.prevotes, second.precommits.trans first.precommits,
    second.futureVotes.trans first.futureVotes, fun h => second.stopped (first.stopped h)⟩

variable (s : TendermintState)

theorem doPrevote_quiet (hash : Hash) : Quiet s (s.doPrevote hash).2 := by
  unfold doPrevote
  split
  · exact .rfl
  · refine ⟨rfl, rfl, rfl, rfl, rfl, rfl, ?_⟩
    rintro (h | h) <;> simp [h]

theorem doPrecommit_quiet (hash : Hash) : Quiet s (s.doPrecommit hash).2 := by
  unfold doPrecommit
  split
  · exact .rfl
  · exact ⟨rfl, rfl, rfl, rfl, rfl, rfl, id⟩

theorem prevoteProposal_quiet : Quiet s s.prevoteProposal.2 := by
  unfold prevoteProposal
  dsimp only
  split
  · split
    · split <;> exact doPrevote_quiet _ _
    · exact doPrevote_quiet _ _
  · exact .rfl

theorem afterPrevote_quiet : Quiet s s.afterPrevote.2 := by
  unfold afterPrevote
  dsimp only
  split
  · split
    · split <;> rename_i step
      · refine Quiet.trans ?_ (doPrecommit_quiet _ _)
        exact ⟨rfl, rfl, rfl, rfl, rfl, rfl, by simp [step]⟩
      · refine Quiet.trans ?_ (prevoteProposal_quiet _)
        exact ⟨rfl, rfl, rfl, rfl, rfl, rfl, id⟩
    · split <;> rename_i step
      · refine Quiet.trans ?_ (doPrecommit_quiet _ _)
        exact ⟨rfl, rfl, rfl, rfl, rfl, rfl, by simp [step]⟩
      · exact prevoteProposal_quiet s
  · exact prevoteProposal_quiet s

theorem afterPrecommit_quiet : Quiet s s.afterPrecommit.2 := by
  unfold afterPrecommit
  split
  · split
    · exact ⟨rfl, rfl, rfl, rfl, rfl, rfl, fun _ => .inl rfl⟩
    · exact .rfl
  · exact .rfl

theorem onProposal_quiet (height round : Nat) (hash : Hash) (validRound : Option Nat) :
    Quiet s (s.onProposal height round hash validRound).2 := by
  unfold onProposal
  split
  · exact .rfl
  split
  · exact .rfl
  split
  · exact .rfl
  · refine Quiet.trans ?_ (doPrevote_quiet _ _)
    exact ⟨rfl, rfl, rfl, rfl, rfl, rfl, id⟩

theorem onProposeTimeout_quiet : Quiet s s.onProposeTimeout.2 := by
  unfold onProposeTimeout
  split
  · exact .rfl
  · exact doPrevote_quiet s _

theorem onPrevoteTimeout_quiet : Quiet s s.onPrevoteTimeout.2 := by
  unfold onPrevoteTimeout
  split <;> rename_i step
  · exact .rfl
  · refine Quiet.trans ?_ (doPrecommit_quiet _ _)
    have step : s.step = .prevote := by simpa using step
    exact ⟨rfl, rfl, rfl, rfl, rfl, rfl, by simp [step]⟩

theorem onCommitWaitTimeout_quiet : Quiet s s.onCommitWaitTimeout.2 := by
  unfold onCommitWaitTimeout
  split
  · exact ⟨rfl, rfl, rfl, rfl, rfl, rfl, fun _ => .inr rfl⟩
  · exact .rfl

theorem restoreLock_quiet (round : Nat) (hash : Hash) : Quiet s (s.restoreLock round hash) :=
  ⟨rfl, rfl, rfl, rfl, rfl, rfl, id⟩

/-- Every vote in a collector or in the buffer was cast, for its own round, as `cast` says. Where commits may be
`forced`, a machine that waits for its commit can be left with prevotes of another round, which it no longer reads. -/
structure Holds (s : TendermintState) (forced : Prop) (cast : VoteType → Nat → AccountId → Hash → Nat → Prop) : Prop where
  prevotes : forced ∧ (s.step = .commitWait ∨ s.step = .committed) ∨
    ∀ v h, s.prevotes.voterFirstHash v = some h → ∃ stake, cast .prevote s.round v h stake
  precommits : ∀ v h, s.precommits.voterFirstHash v = some h → ∃ stake, cast .precommit s.round v h stake
  buffered : ∀ r votes, s.futureVotes r = some votes → ∀ b ∈ votes,
    cast (if b.isPrecommit then .precommit else .prevote) r b.voter b.blockHash b.stake

variable {s s' : TendermintState} {forced : Prop} {cast : VoteType → Nat → AccountId → Hash → Nat → Prop}

theorem holds_new (height totalStake : Nat) : (new height totalStake).Holds forced cast :=
  ⟨.inr (by simp [new]), by simp [new], by simp [new]⟩

section

variable (holds : s.Holds forced cast)

include holds

theorem Holds.mono {cast' : VoteType → Nat → AccountId → Hash → Nat → Prop}
    (weaker : ∀ t r v h stake, cast t r v h stake → cast' t r v h stake) : s.Holds forced cast' where
  prevotes := by
    rcases holds.prevotes with stopped | votes
    · exact .inl stopped
    · refine .inr fun v h first => ?_
      obtain ⟨stake, vote⟩ := votes v h first
      exact ⟨stake, weaker _ _ _ _ _ vote⟩
  precommits := by
    intro v h first
    obtain ⟨stake, vote⟩ := holds.precommits v h first
    exact ⟨stake, weaker _ _ _ _ _ vote⟩
  buffered := fun r votes found b member => weaker _ _ _ _ _ (holds.buffered r votes found b member)

theorem Holds.quiet (quiet : Quiet s s') : s'.Holds forced cast where
  prevotes := by
    rw [quiet.prevotes, quiet.round]
    rcases holds.prevotes with ⟨allowed, stopped⟩ | votes
    · exact .inl ⟨allowed, quiet.stopped stopped⟩
    · exact .inr votes
  precommits := by
    rw [quiet.precommits, quiet.round]
    exact holds.precommits
  buffered := by
    rw [quiet.futureVotes]
    exact holds.buffered

theorem Holds.newRound (round : Nat) : (s.newRound round).Holds forced cast :=
  ⟨.inr (by simp [TendermintState.newRound]), by simp [TendermintState.newRound], holds.buffered⟩

theorem Holds.buffer {round : Nat} {b : BufferedVote}
    (vote : cast (if b.isPrecommit then .precommit else .prevote) round b.voter b.blockHash b.stake) :
    (s.buffer round b).Holds forced cast where
  prevotes := holds.prevotes
  precommits := holds.precommits
  buffered := by
    intro r votes found c member
    by_cases same : r = round
    · subst same
      simp only [TendermintState.buffer, update_self, Option.some.injEq] at found
      subst found
      rcases List.mem_append.mp member with old | new
      · cases stored : s.futureVotes r with
        | none => simp [stored] at old
        | some votes => exact holds.buffered r votes stored c (by simpa [stored] using old)
      · rw [List.mem_singleton.mp new]
        exact vote
    · simp only [TendermintState.buffer, update_of_ne same] at found
      exact holds.buffered r votes found c member

end

theorem voterFirstHash_addVoteRaw {c : VoteCollector} {voter v : AccountId} {hash h : Hash} {stake : Nat}
    (first : (c.addVoteRaw voter hash stake).2.voterFirstHash v = some h) :
    c.voterFirstHash v = some h ∨ (v = voter ∧ h = hash) := by
  rw [VoteCollector.addVoteRaw_voterFirstHash] at first
  split at first
  · by_cases same : v = voter
    · subst same
      rw [update_self, Option.some.injEq] at first
      exact .inr ⟨rfl, first.symm⟩
    · rw [update_of_ne same] at first
      exact .inl first
  · exact .inl first

def count (s : TendermintState) (t : VoteType) (voter : AccountId) (hash : Hash) (stake : Nat) : TendermintState :=
  match t with
  | .prevote => { s with prevotes := (s.prevotes.addVoteRaw voter hash stake).2 }
  | .precommit => { s with precommits := (s.precommits.addVoteRaw voter hash stake).2 }

/-- A vote is dropped, buffered, or counted before the machine reacts to it. -/
inductive Takes (s : TendermintState) (t : VoteType) (height round : Nat) (hash : Hash) (voter : AccountId) (stake : Nat) :
    TendermintState → Prop where
  | dropped : Takes s t height round hash voter stake s
  | buffered (heights : height = s.height) :
      Takes s t height round hash voter stake (s.buffer round ⟨voter, hash, stake, t = .precommit⟩)
  | counted {after : TendermintState} (heights : height = s.height) (rounds : round = s.round)
      (running : t = .prevote → ¬(s.step = .committed ∨ s.step = .commitWait))
        (quiet : Quiet (s.count t voter hash stake) after) :
      Takes s t height round hash voter stake after

section Takes

variable {t : VoteType} {height round : Nat} {hash : Hash} {voter : AccountId} {stake : Nat}

theorem Holds.count (holds : s.Holds forced cast) (vote : cast t s.round voter hash stake) :
    (s.count t voter hash stake).Holds forced cast := by
  cases t with
  | prevote =>
    refine ⟨holds.prevotes.imp_right fun votes v h first => ?_, holds.precommits, holds.buffered⟩
    rcases voterFirstHash_addVoteRaw first with old | ⟨rfl, rfl⟩
    · exact votes v h old
    · exact ⟨stake, vote⟩
  | precommit =>
    refine ⟨holds.prevotes, fun v h first => ?_, holds.buffered⟩
    rcases voterFirstHash_addVoteRaw first with old | ⟨rfl, rfl⟩
    · exact holds.precommits v h old
    · exact ⟨stake, vote⟩

variable (s height round hash voter stake) in
theorem onPrevote_takes :
    s.Takes .prevote height round hash voter stake (s.onPrevote height round hash voter stake).2 := by
  unfold onPrevote
  split <;> rename_i heights
  · exact .dropped
  have heights : height = s.height := by simpa using heights
  split
  · exact .buffered heights
  split <;> rename_i rounds
  · exact .dropped
  split <;> rename_i running
  · exact .dropped
  · exact .counted heights (by simpa using rounds) (fun _ => running) (afterPrevote_quiet _)

variable (s height round hash voter stake) in
theorem onPrecommit_takes :
    s.Takes .precommit height round hash voter stake (s.onPrecommit height round hash voter stake).2 := by
  unfold onPrecommit
  split <;> rename_i heights
  · exact .dropped
  have heights : height = s.height := by simpa using heights
  split
  · exact .buffered heights
  split <;> rename_i rounds
  · exact .dropped
  have rounds : round = s.round := by simpa using rounds
  split
  · exact .dropped
  split
  · exact .counted heights rounds (fun same => by cases same) .rfl
  · exact .counted heights rounds (fun same => by cases same) (afterPrecommit_quiet _)

theorem Takes.position (takes : s.Takes t height round hash voter stake s') : s'.height = s.height ∧ s'.round = s.round := by
  cases takes with
  | dropped => exact ⟨rfl, rfl⟩
  | buffered => exact ⟨rfl, rfl⟩
  | counted _ _ _ quiet => cases t <;> exact ⟨quiet.height, quiet.round⟩

theorem Holds.takes (holds : s.Holds forced cast) (takes : s.Takes t height round hash voter stake s')
    (vote : height = s.height → cast t round voter hash stake) : s'.Holds forced cast := by
  cases takes with
  | dropped => exact holds
  | buffered heights =>
    apply holds.buffer
    cases t <;> exact vote heights
  | counted heights rounds _ quiet => exact (holds.count (rounds ▸ vote heights)).quiet quiet

end Takes

end TendermintState

end AceChain.Consensus
