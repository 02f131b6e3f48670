import AceChain.Consensus.ValidatorSet
import Mathlib.Algebra.BigOperators.Ring.Finset
import Mathlib.Data.Nat.Count

namespace AceChain.Consensus

open Lib

structure LeaderSchedule where
  seed : Hash

namespace LeaderSchedule

section

variable (sha : List UInt8 → Hash)

/-- The first eight bytes of the hash of `input`; the retries append the `u32` counter. -/
def draw (input : List UInt8) (counter : Nat) : Nat :=
  leNat ((hashBytes (sha (if counter = 0 then input else input ++ leBytes 4 counter))).take 8)

def threshold (totalStake : Nat) : Nat := u64Max - u64Max % totalStake

def sample (input : List UInt8) (threshold : Nat) : (fuel counter : Nat) → Option Nat
  | 0, _ => none
  | fuel + 1, counter =>
    let value := draw sha input counter
    if threshold ≤ value then sample input threshold fuel (counter + 1) else some value

def walk (target : Nat) : (accumulated : Nat) → List Validator → Option AccountId
  | _, [] => none
  | accumulated, v :: rest =>
    let accumulated := u64Add accumulated v.stake
    if target < accumulated then some v.idCom else walk target accumulated rest

/-- The default is the return after the walk. -/
def cover (s : ValidatorSet) (target : Nat) : AccountId :=
  (walk target 0 s.validators).getD ((s.validators.getLast?.map (·.idCom)).getD .zero)

def select (fuel : Nat) (input : List UInt8) (s : ValidatorSet) : Option AccountId :=
  if s.isEmpty ∨ s.totalStake = 0 then some .zero
  else (sample sha input (threshold s.totalStake) fuel 0).map (fun value => cover s (value % s.totalStake))

variable (l : LeaderSchedule)

def slotInput (slot : Nat) : List UInt8 := hashBytes l.seed ++ leBytes 8 slot

def roundInput (height round : Nat) : List UInt8 := hashBytes l.seed ++ leBytes 8 height ++ leBytes 4 round

def leaderForSlot (fuel slot : Nat) (s : ValidatorSet) : Option AccountId :=
  select sha fuel (l.slotInput slot) s

def proposerForHeightRound (fuel height round : Nat) (s : ValidatorSet) : Option AccountId :=
  select sha fuel (l.roundInput height round) s

end

variable (validators : List Validator)

def stakeOf (id : AccountId) : Nat := stakes (validators.filter (fun v => v.idCom = id))

def Owns (target : Nat) (v : Validator) : Prop :=
  ∃ before after, validators = before ++ v :: after ∧ stakes before ≤ target ∧ target < stakes before + v.stake

/-- Whenever a draw is accepted, there is an answer, and it is the id of the owner of the draw. -/
def Answers (sha : List UInt8 → Hash) (s : ValidatorSet) (input : List UInt8) (answer : Nat → Option AccountId) : Prop :=
  ∀ n fuel, (∀ m < n, threshold s.totalStake ≤ draw sha input m) → draw sha input n < threshold s.totalStake → n < fuel →
    (answer fuel).isSome ∧
      ∀ id, answer fuel = some id ↔ ∃ v, Owns s.validators (draw sha input n % s.totalStake) v ∧ v.idCom = id

structure StakeWeighted (s : ValidatorSet) : Prop where
  leader : ∀ sha (l : LeaderSchedule) slot, Answers sha s (l.slotInput slot) (fun fuel => l.leaderForSlot sha fuel slot s)
  proposer : ∀ sha (l : LeaderSchedule) height round,
    Answers sha s (l.roundInput height round) (fun fuel => l.proposerForHeightRound sha fuel height round s)
  walked : ∀ target < s.totalStake, walk target 0 s.validators ≠ none
  share : ∀ id, Nat.count (fun value => cover s (value % s.totalStake) = id) (threshold s.totalStake) * s.totalStake =
    stakeOf s.validators id * threshold s.totalStake

theorem count_congr {p q : Nat → Prop} [DecidablePred p] [DecidablePred q] {n : Nat} (same : ∀ k < n, p k ↔ q k) :
    Nat.count p n = Nat.count q n := by
  rw [Nat.count_eq_card_filter_range, Nat.count_eq_card_filter_range]
  congr 1
  exact Finset.filter_congr fun k below => same k (Finset.mem_range.mp below)

theorem count_mod (p : Nat → Prop) [DecidablePred p] (period blocks : Nat) :
    Nat.count (fun value => p (value % period)) (blocks * period) = blocks * Nat.count p period := by
  induction blocks with
  | zero => simp
  | succ blocks ih =>
    have last : Nat.count (fun k => p ((blocks * period + k) % period)) period = Nat.count p period := by
      apply count_congr
      intro k below
      rw [Nat.mul_comm, Nat.mul_add_mod, Nat.mod_eq_of_lt below]
    rw [Nat.succ_mul, Nat.count_add, ih, last, Nat.succ_mul]

theorem threshold_eq (total : Nat) : threshold total = u64Max / total * total := by
  have split := Nat.div_add_mod u64Max total
  have swap := Nat.mul_comm total (u64Max / total)
  unfold threshold
  omega

theorem threshold_pos {total : Nat} (staked : 0 < total) (fits : total < 2 ^ 64) : 0 < threshold total := by
  have rest := Nat.mod_lt u64Max staked
  unfold threshold u64Max at *
  omega

theorem stakes_cons (v : Validator) (rest : List Validator) : stakes (v :: rest) = v.stake + stakes rest := List.sum_cons

theorem stakeOf_cons (v : Validator) (rest : List Validator) (id : AccountId) :
    stakeOf (v :: rest) id = (if v.idCom = id then v.stake else 0) + stakeOf rest id := by
  unfold stakeOf
  by_cases same : v.idCom = id
  · simp [same, stakes_cons]
  · simp [same]

theorem sum_stakeOf {ids : Finset AccountId} {validators : List Validator} (inside : ∀ v ∈ validators, v.idCom ∈ ids) :
    ∑ id ∈ ids, stakeOf validators id = stakes validators := by
  induction validators with
  | nil => exact Finset.sum_eq_zero fun _ _ => rfl
  | cons v rest ih =>
    simp only [List.mem_cons, forall_eq_or_imp] at inside
    simp only [stakeOf_cons, Finset.sum_add_distrib, ih inside.2, Finset.sum_ite_eq, inside.1, if_true, stakes_cons]

section Walk

variable {validators : List Validator} {accumulated target : Nat}

theorem walk_mem {id : AccountId} (found : walk target accumulated validators = some id) : ∃ v ∈ validators, v.idCom = id := by
  induction validators generalizing accumulated with
  | nil => cases found
  | cons v rest ih =>
    unfold walk at found
    dsimp only at found
    split at found
    · exact ⟨v, List.mem_cons_self, Option.some.inj found⟩
    · obtain ⟨w, member, same⟩ := ih found
      exact ⟨w, List.mem_cons_of_mem v member, same⟩

theorem walk_head {v : Validator} (fits : accumulated + v.stake < 2 ^ 64) (rest : List Validator)
    (covered : target < accumulated + v.stake) : walk target accumulated (v :: rest) = some v.idCom := by
  rw [walk, u64Add, Nat.mod_eq_of_lt fits, if_pos covered]

theorem walk_tail {v : Validator} (fits : accumulated + v.stake < 2 ^ 64) (rest : List Validator)
    (beyond : accumulated + v.stake ≤ target) :
    walk target accumulated (v :: rest) = walk target (accumulated + v.stake) rest := by
  rw [walk, u64Add, Nat.mod_eq_of_lt fits, if_neg (by omega)]

theorem walk_owned {before after : List Validator} {v : Validator}
    (fits : accumulated + stakes (before ++ v :: after) < 2 ^ 64)
    (reached : accumulated + stakes before ≤ target) (covered : target < accumulated + stakes before + v.stake) :
    walk target accumulated (before ++ v :: after) = some v.idCom := by
  induction before generalizing accumulated with
  | nil =>
    rw [List.nil_append, stakes_cons] at fits
    exact walk_head (by omega) after covered
  | cons w before ih =>
    rw [List.cons_append, stakes_cons] at fits
    rw [stakes_cons] at reached covered
    rw [List.cons_append, walk_tail (by omega) _ (by omega)]
    exact ih (by omega) (by omega) (by omega)

theorem owner_exists (below : target < stakes validators) : ∃ v, Owns validators target v := by
  induction validators generalizing target with
  | nil => exact absurd below (Nat.not_lt_zero target)
  | cons w rest ih =>
    by_cases here : target < w.stake
    · exact ⟨w, [], rest, rfl, Nat.zero_le target, by simpa [stakes] using here⟩
    · rw [stakes_cons] at below
      have later : target - w.stake < stakes rest := by omega
      obtain ⟨v, before, after, rfl, reached, covered⟩ := ih later
      exact ⟨v, w :: before, after, rfl, by rw [stakes_cons]; omega, by rw [stakes_cons]; omega⟩

theorem count_walk (fits : accumulated + stakes validators < 2 ^ 64) (id : AccountId) :
    Nat.count (fun k => walk (accumulated + k) accumulated validators = some id)
      (stakes validators) = stakeOf validators id := by
  induction validators generalizing accumulated with
  | nil => rfl
  | cons v rest ih =>
    rw [stakes_cons] at fits
    have own : Nat.count (fun k => walk (accumulated + k) accumulated (v :: rest) = some id) v.stake =
        if v.idCom = id then v.stake else 0 := by
      by_cases same : v.idCom = id
      · rw [if_pos same]
        apply Nat.count_of_forall
        intro k below
        rw [walk_head (by omega) rest (by omega), same]
      · rw [if_neg same]
        apply Nat.count_of_forall_not
        intro k below found
        rw [walk_head (by omega) rest (by omega)] at found
        exact same (Option.some.inj found)
    have later : Nat.count (fun k => walk (accumulated + (v.stake + k)) accumulated (v :: rest) = some id) (stakes rest) =
        stakeOf rest id := by
      have fits' : accumulated + v.stake + stakes rest < 2 ^ 64 := by omega
      rw [← ih fits']
      apply count_congr
      intro k _
      rw [walk_tail (by omega) rest (by omega), Nat.add_assoc]
    rw [stakes_cons, Nat.count_add, own, later, stakeOf_cons]

theorem cover_mem {s : ValidatorSet} (nonempty : s.validators ≠ []) (target : Nat) :
    ∃ v ∈ s.validators, v.idCom = cover s target := by
  unfold cover
  cases found : walk target 0 s.validators with
  | some id => exact walk_mem found
  | none =>
    rw [List.getLast?_eq_some_getLast nonempty]
    exact ⟨_, List.getLast_mem nonempty, rfl⟩

end Walk

theorem sample_accepted {sha : List UInt8 → Hash} {input : List UInt8} {bound n : Nat}
    (refused : ∀ m < n, bound ≤ draw sha input m) (accepted : draw sha input n < bound) :
    ∀ fuel counter, counter ≤ n → n < fuel + counter → sample sha input bound fuel counter = some (draw sha input n) := by
  intro fuel
  induction fuel with
  | zero => omega
  | succ fuel ih =>
    intro counter started enough
    unfold sample
    by_cases here : counter = n
    · rw [here, if_neg (by omega)]
    · rw [if_pos (refused counter (by omega))]
      exact ih (counter + 1) (by omega) (by omega)

theorem whole_of_share {s : ValidatorSet} (nonempty : s.validators ≠ []) (accepts : 0 < threshold s.totalStake)
    (share : ∀ id, Nat.count (fun value => cover s (value % s.totalStake) = id) (threshold s.totalStake) * s.totalStake =
      stakeOf s.validators id * threshold s.totalStake) : s.totalStake = stakes s.validators := by
  have inside : ∀ v ∈ s.validators, v.idCom ∈ (s.validators.map (·.idCom)).toFinset := by
    intro v member
    exact List.mem_toFinset.mpr (List.mem_map_of_mem member)
  -- every accepted draw has one owner, so the shares add up to the whole
  have whole : ∑ id ∈ (s.validators.map (·.idCom)).toFinset,
      Nat.count (fun value => cover s (value % s.totalStake) = id) (threshold s.totalStake) = threshold s.totalStake := by
    simp only [Nat.count_eq_card_filter_range]
    rw [← Finset.card_eq_sum_card_fiberwise, Finset.card_range]
    intro value _
    obtain ⟨v, member, same⟩ := cover_mem nonempty (value % s.totalStake)
    dsimp only
    rw [← same]
    exact inside v member
  have total : threshold s.totalStake * s.totalStake = stakes s.validators * threshold s.totalStake := by
    rw [← sum_stakeOf inside, Finset.sum_mul]
    nth_rewrite 1 [← whole]
    rw [Finset.sum_mul]
    exact Finset.sum_congr rfl fun id _ => share id
  rw [Nat.mul_comm] at total
  exact Nat.eq_of_mul_eq_mul_right accepts total

section Weighted

variable {s : ValidatorSet} (whole : s.totalStake = stakes s.validators) (fits : s.totalStake < 2 ^ 64)
include whole fits

theorem walk_of_owns {target : Nat} {v : Validator} (owned : Owns s.validators target v) :
    walk target 0 s.validators = some v.idCom := by
  obtain ⟨before, after, parts, reached, covered⟩ := owned
  rw [whole, parts] at fits
  rw [parts]
  exact walk_owned (by omega) (by omega) (by omega)

theorem share_of_fits (id : AccountId) : Nat.count (fun value => cover s (value % s.totalStake) = id)
    (threshold s.totalStake) *
    s.totalStake = stakeOf s.validators id * threshold s.totalStake := by
  have once : Nat.count (fun target => cover s target = id) s.totalStake = stakeOf s.validators id := by
    have fits' : 0 + stakes s.validators < 2 ^ 64 := by omega
    rw [← count_walk fits' id, ← whole]
    apply count_congr
    intro target below
    obtain ⟨v, owned⟩ := owner_exists (whole ▸ below)
    rw [Nat.zero_add, cover, walk_of_owns whole fits owned, Option.getD_some, Option.some.injEq]
  rw [threshold_eq, count_mod (fun target => cover s target = id), once]
  ring

theorem select_answers (staked : 0 < s.totalStake) (sha : List UInt8 → Hash) (input : List UInt8) :
    Answers sha s input (fun fuel => select sha fuel input s) := by
  intro n fuel refused accepted enough
  have below := Nat.mod_lt (draw sha input n) staked
  obtain ⟨v, owned⟩ := owner_exists (lt_of_lt_of_eq below whole)
  have there : ¬(s.isEmpty = true ∨ s.totalStake = 0) := by
    obtain ⟨before, after, parts, -⟩ := owned
    simp [ValidatorSet.isEmpty, parts, staked.ne']
  have answer : select sha fuel input s = some v.idCom := by
    unfold select cover
    rw [if_neg there, sample_accepted refused accepted fuel 0 (Nat.zero_le n) enough, Option.map_some,
      walk_of_owns whole fits owned, Option.getD_some]
  dsimp only
  rw [answer]
  refine ⟨rfl, fun id => ⟨fun same => ⟨v, owned, Option.some.inj same⟩, ?_⟩⟩
  rintro ⟨w, other, rfl⟩
  rw [← walk_of_owns whole fits owned, walk_of_owns whole fits other]

end Weighted

theorem stakeWeighted_iff {s : ValidatorSet} (staked : 0 < s.totalStake) (fits : s.totalStake < 2 ^ 64) :
    StakeWeighted s ↔ s.totalStake = stakes s.validators := by
  constructor
  · intro weighted
    have nonempty : s.validators ≠ [] := by
      intro empty
      apply weighted.walked 0 staked
      rw [empty, walk]
    exact whole_of_share nonempty (threshold_pos staked fits) weighted.share
  · intro whole
    constructor
    · exact fun sha l slot => select_answers whole fits staked sha (l.slotInput slot)
    · exact fun sha l height round => select_answers whole fits staked sha (l.roundInput height round)
    · intro target below
      obtain ⟨v, owned⟩ := owner_exists (lt_of_lt_of_eq below whole)
      rw [walk_of_owns whole fits owned]
      exact Option.some_ne_none v.idCom
    · exact share_of_fits whole fits

def validatorsWith (stakes : List Nat) : ValidatorSet :=
  .new (stakes.mapIdx (fun i stake => ⟨⟨BitVec.ofNat 256 i⟩, stake, i, ⟨.ed25519, []⟩, ⟨true, true, true⟩⟩))

theorem three_validators_weighted : StakeWeighted (validatorsWith [5, 0, 9]) :=
  (stakeWeighted_iff (by decide) (by decide)).mpr (by decide)

/-- The stakes add up to 5 in `u64`, yet the validator with the stake of 5 is never chosen. -/
theorem overflowing_stake_never_leads : ¬StakeWeighted (validatorsWith [2 ^ 63, 2 ^ 63, 5]) := by
  intro weighted
  have total : (validatorsWith [2 ^ 63, 2 ^ 63, 5]).totalStake = 5 := by decide
  have never : ∀ target < 5, cover (validatorsWith [2 ^ 63, 2 ^ 63, 5]) target ≠ ⟨2⟩ := by decide
  have share := weighted.share ⟨2⟩
  rw [total, Nat.count_of_forall_not fun value _ => never _ (Nat.mod_lt value (by decide))] at share
  exact absurd share (by decide)

end LeaderSchedule

end AceChain.Consensus
