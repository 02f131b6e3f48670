import AceChain.Consensus.Network

namespace AceChain.Consensus

open Lib Function

def TendermintState.emitted (s : TendermintState) : List Call → List TendermintAction
  | [] => []
  | c :: cs => (s.call c).1 ++ (s.call c).2.emitted cs

def World.handles (w : World) (n : AccountId) : List Call → World
  | [] => w
  | c :: cs => (w.handle n c).handles n cs

namespace World

variable (w : World) (n : AccountId) (cs : List Call)

theorem handles_node_self : (w.handles n cs).node n = (w.node n).calls cs := by
  induction cs generalizing w with
  | nil => rfl
  | cons c cs ih =>
    rw [handles, ih]
    simp only [handle, update_self, TendermintState.calls_cons]

theorem handles_node_other {m : AccountId} (different : m ≠ n) : (w.handles n cs).node m = w.node m := by
  induction cs generalizing w with
  | nil => rfl
  | cons c cs ih =>
    rw [handles, ih]
    simp only [handle, update_of_ne different]

theorem handles_sent : (w.handles n cs).sent = ((w.node n).emitted cs).foldl (recordVote n) w.sent := by
  induction cs generalizing w with
  | nil => rfl
  | cons c cs ih =>
    rw [handles, ih]
    simp only [handle, update_self, TendermintState.emitted, List.foldl_append]

theorem handles_commits : (w.handles n cs).commits = ((w.node n).emitted cs).foldl (recordCommit n) w.commits := by
  induction cs generalizing w with
  | nil => rfl
  | cons c cs ih =>
    rw [handles, ih]
    simp only [handle, update_self, TendermintState.emitted, List.foldl_append]

end World

open World

theorem subset_foldl_recordVote (n : AccountId) (actions : List TendermintAction) (log : VoteLog) :
    log ⊆ actions.foldl (recordVote n) log := by
  induction actions generalizing log with
  | nil => exact List.Subset.refl log
  | cons a actions ih => exact List.Subset.trans (subset_recordVote n log a) (ih _)

namespace Network

def DeliversAll (net : Network) (n : AccountId) : VoteLog → TendermintState → List Call → Prop
  | _, _, [] => True
  | log, s, c :: cs => net.Delivers log c ∧ net.DeliversAll n ((s.call c).1.foldl (recordVote n) log) (s.call c).2 cs

variable {net : Network} {w : World} {n : AccountId} {ok : TendermintState → Call → Prop}

theorem Reaches.handles {cs : List Call} (reaches : net.Reaches ok w)
    (honest : n ∈ net.honest) (delivers : net.DeliversAll n w.sent (w.node n) cs)
    (meets : TendermintState.AllMeet ok (w.node n) cs) : net.Reaches ok (w.handles n cs) := by
  induction cs generalizing w with
  | nil => exact reaches
  | cons c cs ih =>
    refine ih (reaches.handle honest delivers.1 meets.1) ?_ ?_
    · simpa only [World.handle, update_self] using delivers.2
    · simpa only [World.handle, update_self, TendermintState.AllMeet] using meets.2

theorem Reaches.weaken (reaches : net.Reaches ok w) :
    net.Reaches (fun _ _ => True) w := by
  induction reaches with
  | initial => exact .initial
  | handle _ honest delivers _ ih => exact ih.handle honest delivers trivial

end Network

instance (s : TendermintState) : (c : Call) → Decidable (NoRoundWrap s c)
  | .onPrecommitTimeout => inferInstanceAs (Decidable (_ → _ → _))
  | .onProposal _ _ _ _ => .isTrue trivial
  | .onPrevote _ _ _ _ _ => .isTrue trivial
  | .onPrecommit _ _ _ _ _ => .isTrue trivial
  | .onProposeTimeout => .isTrue trivial
  | .onPrevoteTimeout => .isTrue trivial
  | .onCommitWaitTimeout => .isTrue trivial
  | .drainBufferedVotes => .isTrue trivial
  | .newRound _ => .isTrue trivial
  | .newHeight _ _ => .isTrue trivial
  | .forceCommit _ _ _ => .isTrue trivial
  | .restoreLock _ _ => .isTrue trivial

instance (net : Network) (log : VoteLog) : (c : Call) → Decidable (net.Delivers log c)
  | .onPrevote _ _ _ _ _ => inferInstanceAs (Decidable (_ → _ ∧ _ ∧ (_ → _)))
  | .onPrecommit _ _ _ _ _ => inferInstanceAs (Decidable (_ → _ ∧ _ ∧ (_ → _)))
  | .onProposal _ _ _ _ => .isTrue trivial
  | .onProposeTimeout => .isTrue trivial
  | .onPrevoteTimeout => .isTrue trivial
  | .onPrecommitTimeout => .isTrue trivial
  | .onCommitWaitTimeout => .isTrue trivial
  | .drainBufferedVotes => .isTrue trivial
  | .newRound _ => .isFalse id
  | .newHeight _ _ => .isFalse id
  | .forceCommit _ _ _ => .isFalse id
  | .restoreLock _ _ => .isFalse id

instance decidableDeliversAll (net : Network) (n : AccountId) :
    (log : VoteLog) → (s : TendermintState) → (cs : List Call) → Decidable (net.DeliversAll n log s cs)
  | _, _, [] => .isTrue trivial
  | log, s, c :: cs => @instDecidableAnd _ _ inferInstance
      (decidableDeliversAll net n ((s.call c).1.foldl (recordVote n) log) (s.call c).2 cs)

namespace ThreeHonest

def nodeA : AccountId := ⟨1⟩

def nodeB : AccountId := ⟨2⟩

def nodeC : AccountId := ⟨3⟩

def network : Network where
  height := 1
  validators := {nodeA, nodeB, nodeC}
  stake := fun _ => 1
  honest := {nodeA, nodeB, nodeC}
  totalStake_lt := by decide

def emptyRound (n : AccountId) (r : Nat) : List Call :=
  [.onProposeTimeout, .onPrevote 1 r nilBlockHash n 1, .onPrevoteTimeout, .onPrecommit 1 r nilBlockHash n 1,
    .onPrecommitTimeout]

def twoRounds (n : AccountId) : List Call :=
  [.onProposal 1 0 9 none, .onPrevote 1 0 9 n 1, .onPrevoteTimeout, .onPrecommit 1 0 nilBlockHash n 1,
    .onPrecommitTimeout, .onProposal 1 1 5 none, .onPrevote 1 1 5 n 1]

def lockBlock (n other : AccountId) : List Call := [.onPrevote 1 1 5 other 1, .onPrecommit 1 1 5 n 1]

def commitBlock (n other : AccountId) : List Call := [.onPrecommit 1 1 5 n 1, .onPrecommit 1 1 5 other 1]

def beforeLock : World :=
  ((network.initial.handles nodeA (twoRounds nodeA)).handles nodeB (twoRounds nodeB)).handles nodeC (emptyRound nodeC 0)

def afterLock : World := (beforeLock.handles nodeA (lockBlock nodeA nodeB)).handles nodeB (lockBlock nodeB nodeA)

def twoCommits : World :=
  (afterLock.handles nodeA (commitBlock nodeA nodeB)).handles nodeC (commitBlock nodeA nodeB)

def afterCommit : World :=
  ((afterLock.handles nodeC (commitBlock nodeA nodeB)).handles nodeA [.onPrecommitTimeout]).handles nodeB
    [.onPrecommitTimeout]

theorem reaches_beforeLock : network.Reaches NoRoundWrap beforeLock :=
  ((Network.Reaches.initial.handles (n := nodeA) (by decide) (by decide) (by decide)).handles (n := nodeB) (by decide)
    (by decide) (by decide)).handles (by decide) (by decide) (by decide)

theorem reaches_afterLock : network.Reaches NoRoundWrap afterLock :=
  (reaches_beforeLock.handles (n := nodeA) (by decide) (by decide) (by decide)).handles (by decide) (by decide)
    (by decide)

theorem reaches_twoCommits : network.Reaches NoRoundWrap twoCommits :=
  (reaches_afterLock.handles (n := nodeA) (by decide) (by decide) (by decide)).handles (by decide) (by decide)
    (by decide)

theorem reaches_afterCommit : network.Reaches NoRoundWrap afterCommit :=
  ((reaches_afterLock.handles (n := nodeC) (by decide) (by decide) (by decide)).handles (n := nodeA) (by decide)
    (by decide) (by decide)).handles (by decide) (by decide) (by decide)

end ThreeHonest

/-- Agreement within a height, as long as the round counter does not wrap. -/
theorem tendermint_agreement (net : Network) (byzantine : 3 * net.byzantineStake < net.totalStake) (w : World)
    (reaches : net.Reaches NoRoundWrap w) (a b : CommitRecord) (ha : a ∈ w.commits) (hb : b ∈ w.commits) :
    a.blockHash = b.blockHash := by
  have inv := worldInv_reaches reaches
  have bounded : net.electorate.Bounded := byzantine
  exact inv.locked.agreement bounded (inv.commits a ha).1 (inv.commits b hb).1 (inv.commits a ha).2 (inv.commits b hb).2

namespace ThreeHonest

theorem tendermint_agreement_twoCommits : twoCommits.commits = [⟨nodeC, 1, 1, 5⟩, ⟨nodeA, 1, 1, 5⟩] ∧
    ∀ a ∈ twoCommits.commits, ∀ b ∈ twoCommits.commits, a.blockHash = b.blockHash :=
  ⟨rfl, fun a ha b hb => tendermint_agreement network (by decide) twoCommits reaches_twoCommits a b ha hb⟩

def locked (r : Nat) : TendermintState :=
  { TendermintState.new 1 3 with
    round := r
    lockedRound := some 1
    lockedHash := some 5
    validRound := some 1
    validHash := some 5
    pastQuorums := update (fun _ _ => false) 1 (update (fun _ => false) 5 true) }

theorem afterCommit_nodeA : afterCommit.node nodeA = locked 2 := rfl

theorem afterCommit_nodeB : afterCommit.node nodeB = locked 2 := rfl

theorem afterCommit_commits : afterCommit.commits = [⟨nodeC, 1, 1, 5⟩] := rfl

variable (n : AccountId)

def nilVote : VoteCollector := ((VoteCollector.new 1 3).addVoteRaw n nilBlockHash 1).2

theorem emptyRound_steps (n : AccountId) (r : Nat) :
    (locked r).call .onProposeTimeout =
        ([.broadcastPrevote 1 r nilBlockHash], { locked r with prevoted := true, step := .prevote }) ∧
      { locked r with prevoted := true, step := .prevote }.call (.onPrevote 1 r nilBlockHash n 1) =
        ([.none], { locked r with prevoted := true, step := .prevote, prevotes := nilVote n }) ∧
      { locked r with prevoted := true, step := .prevote, prevotes := nilVote n }.call .onPrevoteTimeout =
        ([.broadcastPrecommit 1 r nilBlockHash],
          { locked r with prevoted := true, step := .precommit, prevotes := nilVote n, precommitted := true }) ∧
      { locked r with prevoted := true, step := .precommit, prevotes := nilVote n, precommitted := true }.call
          (.onPrecommit 1 r nilBlockHash n 1) =
        ([.none], { locked r with prevoted := true, step := .precommit, prevotes := nilVote n, precommitted := true
                                  precommits := nilVote n }) ∧
      { locked r with prevoted := true, step := .precommit, prevotes := nilVote n, precommitted := true
                      precommits := nilVote n }.call .onPrecommitTimeout =
        ([.scheduleProposal 1 (u32Add r 1)], locked (u32Add r 1)) := by
  refine ⟨rfl, ?_, rfl, ?_, rfl⟩
  · exact congrArg TendermintState.single
      (TendermintState.onPrevote_here { locked r with prevoted := true, step := .prevote } nilBlockHash n 1 (by simp))
  · exact congrArg TendermintState.single
      (TendermintState.onPrecommit_here
        { locked r with prevoted := true, step := .precommit, prevotes := nilVote n, precommitted := true }
        nilBlockHash n 1 (by simp))

theorem emptyRound_calls (n : AccountId) (r : Nat) : (locked r).calls (emptyRound n r) = locked (u32Add r 1) := by
  obtain ⟨h₁, h₂, h₃, h₄, h₅⟩ := emptyRound_steps n r
  simp only [emptyRound, TendermintState.calls_cons, h₁, h₂, h₃, h₄, h₅]
  rfl

theorem emptyRound_emitted (n : AccountId) (r : Nat) : (locked r).emitted (emptyRound n r) =
    [.broadcastPrevote 1 r nilBlockHash, .none, .broadcastPrecommit 1 r nilBlockHash, .none,
      .scheduleProposal 1 (u32Add r 1)] := by
  obtain ⟨h₁, h₂, h₃, h₄, h₅⟩ := emptyRound_steps n r
  simp only [emptyRound, TendermintState.emitted, h₁, h₂, h₃, h₄, h₅, List.cons_append, List.nil_append]

theorem emptyRound_delivers {n : AccountId} (member : n ∈ network.validators) (r : Nat) (log : VoteLog) :
    network.DeliversAll n log (locked r) (emptyRound n r) := by
  obtain ⟨h₁, h₂, h₃, h₄, h₅⟩ := emptyRound_steps n r
  simp only [emptyRound, Network.DeliversAll, h₁, h₂, h₃, h₄, List.foldl_cons, List.foldl_nil, recordVote,
    TendermintAction.cast]
  refine ⟨trivial, fun _ => ⟨member, rfl, fun _ => ?_⟩, trivial, fun _ => ⟨member, rfl, fun _ => ?_⟩, trivial, trivial⟩
  · exact List.mem_cons_self
  · exact List.mem_cons_self

theorem reaches_emptyRounds {n : AccountId} (member : n ∈ network.honest) (k : Nat) :
    ∀ (w : World) (r : Nat), r < 2 ^ 32 → network.Reaches (fun _ _ => True) w → w.node n = locked r →
      ∃ w', network.Reaches (fun _ _ => True) w' ∧ w'.node n = locked ((r + k) % 2 ^ 32) ∧
        (∀ m, m ≠ n → w'.node m = w.node m) ∧ w.sent ⊆ w'.sent ∧ w'.commits = w.commits := by
  induction k with
  | zero =>
    intro w r bound reaches start
    exact ⟨w, reaches, by rw [start, Nat.add_zero, Nat.mod_eq_of_lt bound], fun _ _ => rfl, List.Subset.refl _, rfl⟩
  | succ k ih =>
    intro w r bound reaches start
    have first : network.Reaches (fun _ _ => True) (w.handles n (emptyRound n r)) :=
      reaches.handles member (start ▸ emptyRound_delivers member r w.sent) (meets_true _)
    have next : (w.handles n (emptyRound n r)).node n = locked (u32Add r 1) := by
      rw [handles_node_self, start, emptyRound_calls]
    obtain ⟨w', reaches', node, others, sent, commits⟩ := ih _ (u32Add r 1) (Nat.mod_lt _ (by decide)) first next
    refine ⟨w', reaches', ?_, ?_, ?_, ?_⟩
    · rw [node]
      congr 1
      unfold u32Add
      omega
    · intro m different
      rw [others m different, handles_node_other w n _ different]
    · refine List.Subset.trans ?_ sent
      rw [handles_sent]
      exact subset_foldl_recordVote n _ _
    · rw [commits, handles_commits, start, emptyRound_emitted]
      rfl

def relockBlock : List Call :=
  [.onPrevote 1 0 9 nodeA 1, .onPrevote 1 0 9 nodeB 1, .onProposeTimeout, .onPrevote 1 0 nilBlockHash n 1,
    .onPrecommit 1 0 9 n 1]

def oldBallots : VoteLog := [⟨nodeA, .prevote, 0, 9⟩, ⟨nodeB, .prevote, 0, 9⟩]

def newBallots : VoteLog := [⟨n, .precommit, 0, 9⟩, ⟨n, .prevote, 0, nilBlockHash⟩]

theorem relockBlock_delivers {n : AccountId} (member : n = nodeA ∨ n = nodeB) {log : VoteLog} (old : oldBallots ⊆ log) :
    network.DeliversAll n log (locked 0) (relockBlock n) := by
  have sentA : ⟨nodeA, .prevote, 0, 9⟩ ∈ log := old (by decide)
  have sentB : ⟨nodeB, .prevote, 0, 9⟩ ∈ log := old (by decide)
  have inside : n ∈ network.validators := by rcases member with rfl | rfl <;> decide
  refine ⟨fun _ => ⟨by decide, rfl, fun _ => sentA⟩, fun _ => ⟨by decide, rfl, fun _ => sentB⟩, trivial,
    fun _ => ⟨inside, rfl, fun _ => ?_⟩, fun _ => ⟨inside, rfl, fun _ => ?_⟩, trivial⟩
  · exact List.mem_cons_self
  · rcases member with rfl | rfl <;> exact List.mem_cons_self

/-- A validator that comes back to round 0 precommits block 9, though it is locked on block 5. -/
theorem reaches_relock {w : World} {n : AccountId} (reaches : network.Reaches (fun _ _ => True) w)
    (member : n = nodeA ∨ n = nodeB) (node : w.node n = locked 0) (old : oldBallots ⊆ w.sent) :
    network.Reaches (fun _ _ => True) (w.handles n (relockBlock n)) ∧
      (w.handles n (relockBlock n)).sent = newBallots n ++ w.sent ∧
      (w.handles n (relockBlock n)).commits = w.commits := by
  refine ⟨?_, ?_, ?_⟩
  · refine reaches.handles ?_ (node ▸ relockBlock_delivers member old) (meets_true _)
    rcases member with rfl | rfl <;> decide
  · rw [handles_sent, node]
    rcases member with rfl | rfl <;> rfl
  · rw [handles_commits, node]
    rcases member with rfl | rfl <;> rfl

/-- After `2 ^ 32` rounds the round counter wraps, and two honest validators commit different blocks. -/
theorem agreement_broken_by_round_wrap : 3 * network.byzantineStake < network.totalStake ∧
    ∃ w, network.Reaches (fun _ _ => True) w ∧ ∃ a ∈ w.commits, ∃ b ∈ w.commits,
      a.node ∈ network.honest ∧ b.node ∈ network.honest ∧ a.height = b.height ∧ a.blockHash ≠ b.blockHash := by
  refine ⟨by decide, ?_⟩
  obtain ⟨w₁, reaches₁, atA₁, others₁, sent₁, commits₁⟩ := reaches_emptyRounds (n := nodeA) (by decide)
    (2 ^ 32 - 2) afterCommit 2 (by decide) reaches_afterCommit.weaken afterCommit_nodeA
  have atB₁ : w₁.node nodeB = locked 2 := (others₁ nodeB (by decide)).trans afterCommit_nodeB
  obtain ⟨w₂, reaches₂, atB₂, others₂, sent₂, commits₂⟩ := reaches_emptyRounds (n := nodeB) (by decide)
    (2 ^ 32 - 2) w₁ 2 (by decide) reaches₁ atB₁
  have atA₂ : w₂.node nodeA = locked 0 := (others₂ nodeA (by decide)).trans atA₁
  have old₂ : oldBallots ⊆ w₂.sent := List.Subset.trans (List.Subset.trans (by decide) sent₁) sent₂
  obtain ⟨reaches₃, sent₃, commits₃⟩ := reaches_relock reaches₂ (.inl rfl) atA₂ old₂
  let w₃ := w₂.handles nodeA (relockBlock nodeA)
  have atA₃ : w₃.node nodeA = (locked 0).calls (relockBlock nodeA) := by rw [handles_node_self, atA₂]
  have atB₃ : w₃.node nodeB = locked 0 := (handles_node_other w₂ nodeA _ (by decide)).trans atB₂
  have old₃ : oldBallots ⊆ w₃.sent := by
    rw [sent₃]
    exact List.subset_append_of_subset_right _ old₂
  obtain ⟨reaches₄, sent₄, commits₄⟩ := reaches_relock reaches₃ (.inr rfl) atB₃ old₃
  let w₄ := w₃.handles nodeB (relockBlock nodeB)
  have atA₄ : w₄.node nodeA = (locked 0).calls (relockBlock nodeA) :=
    (handles_node_other w₃ nodeB _ (by decide)).trans atA₃
  have precommit : ⟨nodeB, .precommit, 0, 9⟩ ∈ w₄.sent := by
    rw [sent₄]
    exact List.mem_cons_self
  have commit : network.Reaches (fun _ _ => True) (w₄.handles nodeA [.onPrecommit 1 0 9 nodeB 1]) :=
    reaches₄.handles (by decide) ⟨fun _ => ⟨by decide, rfl, fun _ => precommit⟩, trivial⟩ (meets_true _)
  have commits : (w₄.handles nodeA [.onPrecommit 1 0 9 nodeB 1]).commits = [⟨nodeA, 1, 0, 9⟩, ⟨nodeC, 1, 1, 5⟩] := by
    rw [handles_commits, atA₄, commits₄, commits₃, commits₂, commits₁, afterCommit_commits]
    rfl
  refine ⟨_, commit, ⟨nodeA, 1, 0, 9⟩, ?_, ⟨nodeC, 1, 1, 5⟩, ?_, by decide⟩ <;> rw [commits] <;> simp

end ThreeHonest

end AceChain.Consensus
