import AceChain.Consensus.ValidatorSet
import AceChain.Lib.Runs

namespace AceChain.Consensus

open Lib List

namespace ValidatorSet

variable (s : ValidatorSet) (id : AccountId)

def removeValidator : Option Validator × ValidatorSet :=
  match s.getById id with
  | none => (none, s)
  | some removed => (some removed, { s with
      validators := s.validators.eraseP (fun v => v.idCom = id)
      totalStake := s.totalStake - removed.stake })

/-- The first validator with the id gets the stake. -/
def setStake (id : AccountId) (newStake : Nat) : List Validator → List Validator
  | [] => []
  | v :: rest => if v.idCom = id then { v with stake := newStake } :: rest else v :: setStake id newStake rest

def updateStake (newStake : Nat) : ValidatorSet :=
  if newStake < minValidatorStake then (s.removeValidator id).2
  else
    match s.getById id with
    | none => s
    | some v => { s with
        validators := setStake id newStake s.validators
        totalStake := u64Add (s.totalStake - v.stake) newStake }

inductive Change where
  | add (v : Validator)
  | remove (id : AccountId)
  | update (id : AccountId) (newStake : Nat)
deriving DecidableEq

/-- A validator that is not accepted leaves the set as it is. -/
def change : Change → ValidatorSet
  | .add v => (s.addValidator v).toOption.getD s
  | .remove id => (s.removeValidator id).2
  | .update id newStake => s.updateStake id newStake

variable (validators : List Validator)

structure Sound (s : ValidatorSet) : Prop where
  total : s.totalStake = stakes s.validators
  distinct : (s.validators.map (·.idCom)).Nodup
  sorted : s.validators.Pairwise (fun a b => (compare a.idCom b.idCom).isLE = true)
  positive : ∀ v ∈ s.validators, 0 < v.stake

def Fits : Change → Prop
  | .add v => (s.addValidator v).isOk = true → s.totalStake + v.stake < 2 ^ 64
  | .remove _ => True
  | .update id newStake => minValidatorStake ≤ newStake → ∀ v, s.getById id = some v →
      s.totalStake - v.stake + newStake < 2 ^ 64

theorem sorted_sortById :
    (sortById validators).Pairwise (fun a b => (compare a.idCom b.idCom).isLE = true) := by
  have total : Std.Total (fun a b : Validator => (compare a.idCom b.idCom).isLE = true) :=
    ⟨fun a b => by
      have swapped : compare a.idCom b.idCom = (compare b.idCom a.idCom).swap := Std.OrientedCmp.eq_swap
      rw [swapped]
      cases compare b.idCom a.idCom <;> decide⟩
  have trans : IsTrans Validator (fun a b => (compare a.idCom b.idCom).isLE = true) :=
    ⟨fun a b c first second => Std.TransCmp.isLE_trans first second⟩
  exact pairwise_insertionSort _ validators

theorem sortById_perm (validators : List Validator) : (sortById validators).Perm validators := perm_insertionSort _ _

theorem stakes_perm {first second : List Validator} (perm : first.Perm second) : stakes first = stakes second :=
  (perm.map _).sum_nat

variable {s : ValidatorSet} {id : AccountId} {validators : List Validator} {v : Validator}

/-- What `new` and `add_validator` build: the validators in order, with the wrapped sum of their stakes. -/
theorem sound_sorted_iff (generation : Nat) (positive : ∀ v ∈ validators, 0 < v.stake) :
    Sound ⟨sortById validators, stakes validators % 2 ^ 64, generation⟩ ↔
      (validators.map (·.idCom)).Nodup ∧ stakes validators < 2 ^ 64 := by
  have perm := sortById_perm validators
  have sum := stakes_perm perm
  have ids := (perm.map (·.idCom)).nodup_iff
  constructor
  · intro sound
    have total : stakes validators % 2 ^ 64 = stakes validators := sound.total.trans sum
    exact ⟨ids.mp sound.distinct, total ▸ Nat.mod_lt _ (by decide)⟩
  · intro ⟨distinct, fits⟩
    exact ⟨(Nat.mod_eq_of_lt fits).trans sum.symm, ids.mpr distinct, sorted_sortById _,
      fun v member => positive v (perm.mem_iff.mp member)⟩

theorem sound_new_iff : Sound (new validators) ↔
    ((validators.filter (fun v => minValidatorStake ≤ v.stake)).map (·.idCom)).Nodup ∧
      stakes (validators.filter (fun v => minValidatorStake ≤ v.stake)) < 2 ^ 64 := by
  have positive : ∀ v ∈ validators.filter (fun v => minValidatorStake ≤ v.stake), 0 < v.stake :=
    fun v member => of_decide_eq_true (List.mem_filter.mp member).2
  have sum := stakes_perm (sortById_perm (validators.filter (fun v => minValidatorStake ≤ v.stake)))
  rw [← sound_sorted_iff 0 positive, ← sum]
  rfl

theorem add_sound_iff (sound : Sound s) : Sound ((s.addValidator v).toOption.getD s) ↔
    ((s.addValidator v).isOk = true → s.totalStake + v.stake < 2 ^ 64) := by
  cases added : s.addValidator v with
  | error e => exact iff_of_true sound (fun accepted => by cases accepted)
  | ok s' =>
    have fresh := addValidator_fresh added
    unfold addValidator at added
    split at added <;> rename_i stake
    · cases added
    split at added
    · cases added
    split at added
    · cases added
    cases added
    have sum : stakes (s.validators ++ [v]) = s.totalStake + v.stake := by
      rw [sound.total]
      simp [stakes]
    have distinct : ((s.validators ++ [v]).map (·.idCom)).Nodup := by
      rw [map_append, nodup_append]
      refine ⟨sound.distinct, nodup_singleton _, ?_⟩
      intro id member id' last same
      obtain ⟨w, listed, rfl⟩ := List.mem_map.mp member
      rw [map_singleton, mem_singleton] at last
      exact fresh w listed (same.trans last)
    have positive : ∀ w ∈ s.validators ++ [v], 0 < w.stake := by
      intro w member
      rcases List.mem_append.mp member with old | last
      · exact sound.positive w old
      · rw [List.mem_singleton.mp last]
        exact not_lt.mp stake
    have built := sound_sorted_iff s.generation positive
    rw [sum] at built
    exact built.trans ⟨fun both _ => both.2, fun fits => ⟨distinct, fits rfl⟩⟩

theorem split_at_id (found : validators.find? (fun v => v.idCom = id) = some v) :
    ∃ before after, validators = before ++ v :: after ∧ validators.eraseP (fun v => v.idCom = id) = before ++ after ∧
      ∀ newStake, setStake id newStake validators = before ++ { v with stake := newStake } :: after := by
  induction validators with
  | nil => cases found
  | cons w rest ih =>
    rw [List.find?_cons] at found
    split at found <;> rename_i same
    · cases found
      exact ⟨[], rest, rfl, by simp [same], fun _ => by simp [setStake, of_decide_eq_true same]⟩
    · obtain ⟨before, after, rfl, erased, set⟩ := ih found
      exact ⟨w :: before, after, rfl, by simp [same, erased], fun newStake => by
        simp [setStake, of_decide_eq_false same, set]⟩

theorem stakes_split (before after : List Validator) (v : Validator) :
    stakes (before ++ v :: after) = stakes (before ++ after) + v.stake := by
  simp [stakes, Nat.add_assoc, Nat.add_comm v.stake]

theorem remove_sound (sound : Sound s) : Sound (s.removeValidator id).2 := by
  unfold removeValidator
  split
  · exact sound
  · rename_i removed found
    obtain ⟨before, after, whole, erased, -⟩ := split_at_id found
    have sublist : (before ++ after).Sublist s.validators :=
      whole ▸ List.Sublist.append_left (sublist_cons_self removed after) before
    have total := sound.total
    rw [whole, stakes_split] at total
    rw [erased]
    exact ⟨by dsimp only; omega, (sublist.map _).nodup sound.distinct, sound.sorted.sublist sublist,
      fun v member => sound.positive v (sublist.mem member)⟩

theorem update_sound_iff (sound : Sound s) (newStake : Nat) :
    Sound (s.updateStake id newStake) ↔ (minValidatorStake ≤ newStake → ∀ v, s.getById id = some v →
      s.totalStake - v.stake + newStake < 2 ^ 64) := by
  unfold updateStake
  split
  · rename_i small
    exact iff_of_true (remove_sound sound) (fun large => absurd large (not_le.mpr small))
  rename_i large
  cases found : s.getById id with
  | none => exact iff_of_true sound (fun _ v some => by cases some)
  | some v =>
    obtain ⟨before, after, whole, -, set⟩ := split_at_id found
    have total := sound.total
    have distinct := sound.distinct
    have sorted : (s.validators.map (·.idCom)).Pairwise (fun a b => (compare a b).isLE = true) :=
      List.pairwise_map.mpr sound.sorted
    have positive := sound.positive
    rw [whole] at distinct sorted positive
    rw [whole, stakes_split] at total
    have sum : stakes (before ++ { v with stake := newStake } :: after) = s.totalStake - v.stake + newStake := by
      rw [stakes_split]
      dsimp only
      omega
    dsimp only
    rw [set newStake]
    constructor
    · intro after_ _ w same
      cases same
      exact sum ▸ after_.total ▸ Nat.mod_lt _ (by decide)
    · intro fits
      -- only a stake changes, so the ids are those of before
      have ids : (before ++ { v with stake := newStake } :: after).map (·.idCom) =
        (before ++ v :: after).map (·.idCom) := by simp
      rw [← ids] at distinct sorted
      refine ⟨(u64Add_of_lt _ _ (fits (not_lt.mp large) v rfl)).trans sum.symm, distinct, List.pairwise_map.mp sorted, ?_⟩
      intro w member
      rcases List.mem_append.mp member with front | back
      · exact positive w (mem_append_left _ front)
      rcases List.mem_cons.mp back with rfl | back
      · exact not_lt.mp large
      · exact positive w (mem_append_right _ (mem_cons_of_mem _ back))

theorem change_sound_iff (s : ValidatorSet) (c : Change) (sound : Sound s) : Sound (s.change c) ↔ s.Fits c := by
  cases c with
  | add v => exact add_sound_iff sound
  | remove id => exact iff_of_true (remove_sound sound) trivial
  | update id newStake => exact update_sound_iff sound newStake

/-- Through all changes the total is the sum of the stakes, the ids are distinct and in order and every stake is positive,
exactly when the set is made of distinct validators and no total passes 64 bits. -/
theorem membership_sound_iff (validators : List Validator) (changes : List Change) :
    (∀ n, Sound (run change (new validators) (changes.take n))) ↔
      (((validators.filter (fun v => minValidatorStake ≤ v.stake)).map (·.idCom)).Nodup ∧
        stakes (validators.filter (fun v => minValidatorStake ≤ v.stake)) < 2 ^ 64) ∧
      Meets change Fits (new validators) changes := by
  rw [← sound_new_iff]
  constructor
  · intro all
    have start : Sound (new validators) := all 0
    exact ⟨start, (invariant_iff_meets change_sound_iff start).mp all⟩
  · intro ⟨start, meets⟩
    exact (invariant_iff_meets change_sound_iff start).mpr meets

end ValidatorSet

open ValidatorSet

namespace SmallSets

def member (id stake index : Nat) : Validator :=
  ⟨⟨BitVec.ofNat 256 id⟩, stake, index, .ed25519 [], ⟨true, false, false⟩⟩

/-- A list with one id twice is taken as it is, and two large stakes add up to nothing. -/
theorem duplicate_and_wrapped_sets :
    ¬ ((new [member 1 5 0, member 1 7 1]).validators.map (·.idCom)).Nodup ∧
      (new [member 1 (2 ^ 63) 0, member 2 (2 ^ 63) 1]).totalStake = 0 ∧
      (run change (new [member 1 (2 ^ 63) 0]) [.add (member 2 (2 ^ 63) 1)]).totalStake = 0 := by
  decide +kernel

end SmallSets

end AceChain.Consensus
