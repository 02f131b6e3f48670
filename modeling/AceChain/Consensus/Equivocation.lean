import AceChain.Consensus.Calls

namespace AceChain.Consensus

variable (v : AccountId)

def castBy (cs : List Call) : List CastVote :=
  cs.filterMap fun c =>
    match c.vote with
    | some (voter, vote) => if voter = v then some vote else none
    | none => none

def Consistent (cs : List Call) : Prop :=
  ∀ x ∈ castBy v cs, ∀ y ∈ castBy v cs, x.height = y.height → x.round = y.round → x.voteType = y.voteType →
    x.blockHash = y.blockHash

instance (v : AccountId) (cs : List Call) : Decidable (Consistent v cs) :=
  inferInstanceAs (Decidable (∀ x ∈ castBy v cs, ∀ y ∈ castBy v cs, _ → _ → _ → _))

theorem mem_castBy {v : AccountId} {cs : List Call} {c : Call} {vote : CastVote} (member : c ∈ cs)
    (cast : c.vote = some (v, vote)) : vote ∈ castBy v cs :=
  List.mem_filterMap.mpr ⟨c, member, by simp [cast]⟩

def ForcedFairly (s : TendermintState) : Call → Prop
  | .forceCommit height round _ =>
    height = s.height → round = s.round ∨ s.precommits.voterFirstHash v = none
  | _ => True

def slashesEquivocator (s : TendermintState) (v : AccountId) : Bool := (s.equivocators v).isSome

def HandedOver (past : List Call) (height : Nat) (t : VoteType) (r : Nat) (u : AccountId) (h : Hash)
    (_ : Nat) : Prop := u = v → ⟨height, r, t, h⟩ ∈ castBy v past

structure FairInv (v : AccountId) (past : List Call) (s : TendermintState) : Prop where
  holds : s.Holds True (HandedOver v past s.height)
  prevotes : s.prevotes.equivocators v = none
  precommits : s.precommits.equivocators v = none

namespace FairInv

variable {v : AccountId} {past : List Call} {s s' : TendermintState}

theorem equivocators_eq_none (inv : FairInv v past s) : s.equivocators v = none := by
  simp [TendermintState.equivocators, inv.precommits, inv.prevotes]

theorem new (height totalStake : Nat) : FairInv v past (.new height totalStake) :=
  ⟨TendermintState.holds_new height totalStake, rfl, rfl⟩

theorem quiet (inv : FairInv v past s) (quiet : TendermintState.Quiet s s') : FairInv v past s' where
  holds := quiet.height ▸ inv.holds.quiet quiet
  prevotes := quiet.prevotes ▸ inv.prevotes
  precommits := quiet.precommits ▸ inv.precommits

theorem addVoteRaw_equivocators_none {c : VoteCollector} {voter : AccountId} {hash : Hash} {stake : Nat}
    (clean : c.equivocators v = none) (agree : voter = v → ∀ first, c.voterFirstHash v = some first → first = hash) :
    (c.addVoteRaw voter hash stake).2.equivocators v = none := by
  rcases VoteCollector.addVoteRaw_equivocators c voter hash stake with same | ⟨first, voted, different, update⟩
  · rw [same, clean]
  · by_cases voterV : voter = v
    · subst voterV
      exact absurd (agree rfl first voted) different
    · rw [update, Function.update_of_ne (Ne.symm voterV), clean]

theorem agree (consistent : Consistent v past) {height round : Nat} {t : VoteType} {x y : Hash} {a b : Nat}
    (hx : HandedOver v past height t round v x a) (hy : HandedOver v past height t round v y b) : x = y :=
  consistent _ (hx rfl) _ (hy rfl) rfl rfl rfl

theorem takes (inv : FairInv v past s) (consistent : Consistent v past) {t : VoteType} {height round : Nat} {hash : Hash}
    {voter : AccountId} {stake : Nat} (takes : s.Takes t height round hash voter stake s')
    (vote : height = s.height → HandedOver v past s.height t round voter hash stake) : FairInv v past s' := by
  have holds := inv.holds.takes takes vote
  rw [← takes.position.1] at holds
  cases takes with
  | dropped => exact inv
  | buffered => exact ⟨holds, inv.prevotes, inv.precommits⟩
  | counted heights rounds running quiet =>
    subst rounds
    cases t with
    | prevote =>
      refine ⟨holds, ?_, quiet.precommits ▸ inv.precommits⟩
      rw [quiet.prevotes]
      refine addVoteRaw_equivocators_none inv.prevotes ?_
      rintro rfl first voted
      rcases inv.holds.prevotes with ⟨-, stopped⟩ | cast
      · exact absurd stopped.symm (running rfl)
      · obtain ⟨_, earlier⟩ := cast voter first voted
        exact agree consistent earlier (vote heights)
    | precommit =>
      refine ⟨holds, quiet.prevotes ▸ inv.prevotes, ?_⟩
      rw [quiet.precommits]
      refine addVoteRaw_equivocators_none inv.precommits ?_
      rintro rfl first voted
      obtain ⟨_, earlier⟩ := inv.holds.precommits voter first voted
      exact agree consistent earlier (vote heights)

theorem replay (inv : FairInv v past s) (consistent : Consistent v past) {b : BufferedVote}
    (vote : HandedOver v past s.height (if b.isPrecommit then .precommit else .prevote) s.round b.voter b.blockHash
      b.stake) : FairInv v past (s.replay b).2 := by
  unfold TendermintState.replay
  split <;> rename_i kind
  · exact inv.takes consistent (s.onPrecommit_takes _ _ _ _ _) (fun _ => by simpa [kind] using vote)
  · exact inv.takes consistent (s.onPrevote_takes _ _ _ _ _) (fun _ => by simpa [kind] using vote)

theorem replayAll (consistent : Consistent v past) (votes : List BufferedVote) :
    ∀ s : TendermintState, FairInv v past s → (∀ b ∈ votes, HandedOver v past s.height
      (if b.isPrecommit then .precommit else .prevote) s.round b.voter b.blockHash b.stake) →
      FairInv v past (s.replayAll votes).2 := by
  induction votes with
  | nil => exact fun s inv _ => inv
  | cons b votes ih =>
    intro s inv cast
    have position := s.replay_position b
    refine ih (s.replay b).2 (inv.replay consistent (cast b List.mem_cons_self)) ?_
    rw [position.1, position.2]
    exact fun c member => cast c (List.mem_cons_of_mem b member)

theorem drainBufferedVotes (inv : FairInv v past s) (consistent : Consistent v past) :
    FairInv v past s.drainBufferedVotes.2 := by
  rw [TendermintState.drainBufferedVotes_eq]
  split <;> rename_i found
  · exact inv
  · exact replayAll consistent _ _ ⟨inv.holds.dropBuffered, inv.prevotes, inv.precommits⟩
      (inv.holds.buffered _ _ found)

theorem forceCommit (inv : FairInv v past s) {height round : Nat} {hash : Hash}
    (fair : ForcedFairly v s (.forceCommit height round hash)) : FairInv v past (s.forceCommit height round hash) := by
  unfold TendermintState.forceCommit
  split <;> rename_i heights
  · exact inv
  · refine ⟨⟨.inl ⟨trivial, .inl rfl⟩, ?_, inv.holds.buffered⟩, inv.prevotes, inv.precommits⟩
    intro u h voted
    rcases fair (by simpa using heights) with rfl | unvoted
    · exact inv.holds.precommits u h voted
    · refine ⟨0, ?_⟩
      rintro rfl
      simp [unvoted] at voted

theorem call (inv : FairInv v past s) (c : Call) (member : c ∈ past) (consistent : Consistent v past)
    (fair : ForcedFairly v s c) : FairInv v past (s.call c).2 := by
  cases c with
  | onProposal height round hash validRound => exact inv.quiet (s.onProposal_quiet _ _ _ _)
  | onPrevote height round hash voter stake =>
    refine inv.takes consistent (s.onPrevote_takes height round hash voter stake) ?_
    rintro rfl rfl
    exact mem_castBy member rfl
  | onPrecommit height round hash voter stake =>
    refine inv.takes consistent (s.onPrecommit_takes height round hash voter stake) ?_
    rintro rfl rfl
    exact mem_castBy member rfl
  | onProposeTimeout => exact inv.quiet s.onProposeTimeout_quiet
  | onPrevoteTimeout => exact inv.quiet s.onPrevoteTimeout_quiet
  | onPrecommitTimeout =>
    simp only [TendermintState.call, TendermintState.single, TendermintState.onPrecommitTimeout]
    split
    · exact inv
    · exact ⟨inv.holds.newRound _, rfl, rfl⟩
  | onCommitWaitTimeout => exact inv.quiet s.onCommitWaitTimeout_quiet
  | drainBufferedVotes => exact inv.drainBufferedVotes consistent
  | newRound round => exact ⟨inv.holds.newRound _, rfl, rfl⟩
  | newHeight height totalStake => exact .new height totalStake
  | forceCommit height round hash => exact inv.forceCommit fair
  | restoreLock round hash => exact inv.quiet (s.restoreLock_quiet _ _)

end FairInv

/-- A validator that votes consistently is never taken for an equivocator. -/
theorem consistent_not_equivocator (height totalStake : Nat) (cs : List Call) (v : AccountId)
    (consistent : Consistent v cs)
    (fair : TendermintState.AllMeet (ForcedFairly v) (.new height totalStake) cs) :
    ((TendermintState.new height totalStake).calls cs).equivocators v = none ∧
      slashesEquivocator ((TendermintState.new height totalStake).calls cs) v = false := by
  have inv : FairInv v cs ((TendermintState.new height totalStake).calls cs) :=
    Lib.run_invariant (fun s c member inv fair => inv.call c member consistent fair) (.new height totalStake) fair
  exact ⟨inv.equivocators_eq_none, by simp [slashesEquivocator, inv.equivocators_eq_none]⟩

def fairCalls : List Call :=
  [.onPrecommit 1 0 nilBlockHash ⟨7⟩ 100, .onPrevote 1 0 9 ⟨7⟩ 100, .onPrecommitTimeout,
    .onPrecommit 1 1 9 ⟨7⟩ 100, .forceCommit 1 1 9, .onPrecommit 1 1 9 ⟨7⟩ 100]

def unfairCalls : List Call :=
  [.onPrecommit 1 0 nilBlockHash ⟨7⟩ 100, .forceCommit 1 1 9, .onPrecommit 1 1 9 ⟨7⟩ 100]

theorem consistent_not_equivocator_fairCalls :
    ((TendermintState.new 1 300).calls fairCalls).equivocators ⟨7⟩ = none ∧
      slashesEquivocator ((TendermintState.new 1 300).calls fairCalls) ⟨7⟩ = false :=
  consistent_not_equivocator 1 300 fairCalls ⟨7⟩ (by decide)
    ⟨trivial, trivial, trivial, trivial, fun _ => .inl rfl, trivial, trivial⟩

theorem forced_commit_false_equivocator :
    Consistent ⟨7⟩ unfairCalls ∧
      ((TendermintState.new 1 300).calls unfairCalls).equivocators ⟨7⟩ = some (nilBlockHash, 9) ∧
      slashesEquivocator ((TendermintState.new 1 300).calls unfairCalls) ⟨7⟩ = true :=
  by decide

end AceChain.Consensus
