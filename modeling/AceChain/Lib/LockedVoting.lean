import AceChain.Lib.Quorum

namespace AceChain.Lib

variable {α β : Type*}

inductive Phase where
  | prevote
  | precommit
deriving DecidableEq

structure Ballot (α β : Type*) where
  voter : α
  phase : Phase
  round : Nat
  value : β
deriving DecidableEq

/-- Some quorum exists whose trusted members have all cast this ballot. The newest ballot heads the log. -/
def Supported (e : Electorate α) (log : List (Ballot α β)) (phase : Phase) (round : Nat) (value : β) : Prop :=
  ∃ q, e.IsQuorum q ∧ ∀ v ∈ q, e.trusted v → ⟨v, phase, round, value⟩ ∈ log

/-- The ballots a trusted voter that keeps its locks may add to a log. -/
structure Admissible (e : Electorate α) (blank : β) (log : List (Ballot α β)) (b : Ballot α β) : Prop where
  fresh : ∀ c ∈ log, c.voter = b.voter → c.phase = b.phase → c.round ≠ b.round
  ordered : ∀ c ∈ log, c.voter = b.voter → c.round ≤ b.round
  supported : b.phase = .precommit → b.value ≠ blank → Supported e log .prevote b.round b.value
  unlocked : b.phase = .prevote → b.value ≠ blank → ∀ c ∈ log, c.voter = b.voter → c.phase = .precommit →
    c.value ≠ blank → c.value ≠ b.value → ∃ r, c.round ≤ r ∧ Supported e log .prevote r b.value

inductive LockedLog (e : Electorate α) (blank : β) : List (Ballot α β) → Prop where
  | nil : LockedLog e blank []
  | cons {log b} (previous : LockedLog e blank log) (step : e.trusted b.voter → Admissible e blank log b) :
      LockedLog e blank (b :: log)

theorem Supported.mono {e : Electorate α} {log log' : List (Ballot α β)} {phase : Phase} {round : Nat} {value : β}
    (subset : log ⊆ log') (support : Supported e log phase round value) : Supported e log' phase round value := by
  obtain ⟨q, quorum, cast⟩ := support
  exact ⟨q, quorum, fun v member trusted => subset (cast v member trusted)⟩

theorem Supported.exists_common [DecidableEq α] {e : Electorate α} {log log' : List (Ballot α β)} {p p' : Phase}
    {r r' : Nat} {x y : β} (bounded : e.Bounded) (hx : Supported e log p r x) (hy : Supported e log' p' r' y) :
    ∃ v, e.trusted v ∧ ⟨v, p, r, x⟩ ∈ log ∧ ⟨v, p', r', y⟩ ∈ log' := by
  obtain ⟨q, quorum, cast⟩ := hx
  obtain ⟨q', quorum', cast'⟩ := hy
  obtain ⟨v, member, member', trusted⟩ := quorum.exists_trusted_inter bounded quorum'
  exact ⟨v, trusted, cast v member trusted, cast' v member' trusted⟩

namespace LockedLog

variable {e : Electorate α} {blank : β} {log : List (Ballot α β)}

section

variable (locked : LockedLog e blank log)

include locked

theorem admissible_of_suffix {b : Ballot α β} {older : List (Ballot α β)}
    (suffix : b :: older <:+ log) (trusted : e.trusted b.voter) : Admissible e blank older b := by
  induction locked with
  | nil => simp at suffix
  | @cons log c previous step ih =>
    rcases List.suffix_cons_iff.mp suffix with same | inner
    · obtain ⟨rfl, rfl⟩ := List.cons.inj same
      exact step trusted
    · exact ih inner

theorem mem_older {b c : Ballot α β} {older : List (Ballot α β)}
    (suffix : b :: older <:+ log) (member : c ∈ log) (voter : c.voter = b.voter) (trusted : e.trusted b.voter)
    (lower : c.round < b.round) : c ∈ older := by
  induction locked with
  | nil => simp at member
  | @cons log d previous step ih =>
    rcases List.suffix_cons_iff.mp suffix with same | inner
    · obtain ⟨rfl, rfl⟩ := List.cons.inj same
      rcases List.mem_cons.mp member with rfl | earlier
      · omega
      · exact earlier
    · rcases List.mem_cons.mp member with rfl | earlier
      · have present : b ∈ log := inner.subset List.mem_cons_self
        have := (step (voter ▸ trusted)).ordered b present voter.symm
        omega
      · exact ih inner earlier

theorem value_unique {b c : Ballot α β} (hb : b ∈ log) (hc : c ∈ log)
    (trusted : e.trusted b.voter) (voter : c.voter = b.voter) (phase : c.phase = b.phase)
    (round : c.round = b.round) : c = b := by
  induction locked with
  | nil => simp at hb
  | @cons log d previous step ih =>
    rcases List.mem_cons.mp hb with rfl | hb' <;> rcases List.mem_cons.mp hc with rfl | hc'
    · rfl
    · exact absurd round ((step trusted).fresh c hc' voter phase)
    · exact absurd round.symm ((step (voter ▸ trusted)).fresh b hb' voter.symm phase.symm)
    · exact ih hb' hc'

theorem prevote_supported {v : α} {r : Nat} {x : β}
    (member : ⟨v, .precommit, r, x⟩ ∈ log) (trusted : e.trusted v) (value : x ≠ blank) :
    Supported e log .prevote r x := by
  obtain ⟨newer, older, rfl⟩ := List.append_of_mem member
  have admissible := locked.admissible_of_suffix (List.suffix_append newer _) trusted
  refine (admissible.supported rfl value).mono ?_
  intro b inside
  simp [inside]

end

variable [DecidableEq α]

theorem prevote_unique (locked : LockedLog e blank log) (bounded : e.Bounded) {r : Nat} {x y : β}
    (hx : Supported e log .prevote r x) (hy : Supported e log .prevote r y) : x = y := by
  obtain ⟨v, trusted, castX, castY⟩ := hx.exists_common bounded hy
  have same := locked.value_unique castY castX trusted rfl rfl rfl
  exact congrArg Ballot.value same

/-- Once `x` has a precommit quorum at `r`, no other value gains a prevote quorum at `r` or later. The induction is
on the log: a later prevote for `y` was admitted because of an older quorum for `y`. -/
theorem prevote_locked (locked : LockedLog e blank log) (bounded : e.Bounded) {r : Nat} {x : β} (value : x ≠ blank)
    (commit : Supported e log .precommit r x) (n : Nat) :
    ∀ older, older <:+ log → older.length ≤ n → ∀ r' y, r ≤ r' → y ≠ blank → Supported e older .prevote r' y →
      y = x := by
  induction n with
  | zero =>
    intro older suffix short r' y later valueY support
    obtain ⟨v, trusted, -, castY⟩ := commit.exists_common bounded support
    rw [List.length_eq_zero_iff.mp (Nat.le_zero.mp short)] at castY
    simp at castY
  | succ n ih =>
    intro older suffix short r' y later valueY support
    obtain ⟨v, trusted, castX, castY⟩ := commit.exists_common bounded support
    rcases Nat.eq_or_lt_of_le later with rfl | strict
    · exact locked.prevote_unique bounded (support.mono suffix.subset) (locked.prevote_supported castX trusted value)
    by_contra different
    obtain ⟨newer, oldest, rfl⟩ := List.append_of_mem castY
    have inner : ⟨v, .prevote, r', y⟩ :: oldest <:+ log := (List.suffix_append newer _).trans suffix
    have before : ⟨v, .precommit, r, x⟩ ∈ oldest := locked.mem_older inner castX rfl trusted strict
    have admissible := locked.admissible_of_suffix inner trusted
    obtain ⟨r'', above, earlier⟩ := admissible.unlocked rfl valueY _ before rfl rfl value (Ne.symm different)
    refine different (ih oldest ((List.suffix_cons _ _).trans inner) ?_ r'' y above valueY earlier)
    simp only [List.length_append, List.length_cons] at short
    omega

/-- Agreement: at most one value other than `blank` ever has a precommit quorum, in whichever rounds. -/
theorem agreement (locked : LockedLog e blank log) (bounded : e.Bounded) {r r' : Nat} {x y : β} (hx : x ≠ blank)
    (hy : y ≠ blank) (commitX : Supported e log .precommit r x) (commitY : Supported e log .precommit r' y) :
    x = y := by
  obtain ⟨v, trusted, castX, castY⟩ := commitX.exists_common bounded commitY
  have supportX := locked.prevote_supported castX trusted hx
  have supportY := locked.prevote_supported castY trusted hy
  rcases Nat.le_total r r' with later | later
  · exact (locked.prevote_locked bounded hx commitX _ log List.suffix_rfl le_rfl r' y later hy supportY).symm
  · exact locked.prevote_locked bounded hy commitY _ log List.suffix_rfl le_rfl r x later hx supportX

end LockedLog

end AceChain.Lib
