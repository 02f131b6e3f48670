import AceChain.State.AliasIndex
import AceChain.State.ShardedState
import AceChain.State.Sweep

namespace AceChain.State

open Lib StateTree Function

/-- Where an account is: the shards it is hot in, those it is stubbed in, and the shard the index has for it. -/
structure Placement where
  hot : Nat → Prop
  cold : Nat → Prop
  index : Option Nat

namespace Placement

/-- Hot in one shard at most, which is the one the index has; only the default shard may hold what is not indexed. Not stubbed
in a shard other than that. -/
structure Placed (p : Placement) : Prop where
  alone : ∀ j k, p.hot j → p.hot k → j = k
  indexed : ∀ k, p.index = some k → p.hot k
  unindexed : ∀ k, p.hot k → p.index = none → k = 0
  apart : ∀ j k, p.hot j → p.cold k → j = k

variable {p q : Placement} {k : Nat}

theorem Placed.index_eq (placed : p.Placed) {j : Nat} (index : p.index = some j) (hot : p.hot k) : k = j :=
  placed.alone k j hot (placed.indexed j index)

theorem Placed.congr (placed : p.Placed) (hot : ∀ k, q.hot k ↔ p.hot k) (cold : ∀ k, q.cold k ↔ p.cold k)
    (index : q.index = p.index) : q.Placed where
  alone j k first second := placed.alone j k ((hot j).mp first) ((hot k).mp second)
  indexed k found := (hot k).mpr (placed.indexed k (index ▸ found))
  unindexed k here none_ := placed.unindexed k ((hot k).mp here) (index ▸ none_)
  apart j k here there := placed.apart j k ((hot j).mp here) ((cold k).mp there)

theorem placed_single_iff (hot : ∀ j, p.hot j ↔ j = k) (index : p.index = some k) : p.Placed ↔ ∀ j, p.cold j → j = k := by
  constructor
  · intro placed j cold
    exact (placed.apart k j ((hot k).mpr rfl) cold).symm
  · intro apart
    refine ⟨?_, ?_, ?_, ?_⟩
    · intro i j first second
      rw [(hot i).mp first, (hot j).mp second]
    · intro j found
      rw [index] at found
      cases found
      exact (hot k).mpr rfl
    · intro j _ none_
      rw [index] at none_
      cases none_
    · intro i j here there
      rw [(hot i).mp here, apart j there]

theorem placed_of_gone (gone : ∀ j, ¬p.hot j) (index : p.index = none) : p.Placed where
  alone j _ here _ := absurd here (gone j)
  indexed k found := by
    rw [index] at found
    cases found
  unindexed k here _ := absurd here (gone k)
  apart j _ here _ := absurd here (gone j)

end Placement

namespace ShardedState

variable (s : ShardedState)

def Hot (id : AccountId) (shard : Nat) : Prop := ∃ tree, s.shard shard = some tree ∧ tree.contains id = true

def Stubbed (id : AccountId) (shard : Nat) : Prop :=
  ∃ tree, s.shard shard = some tree ∧ tree.isStubbed id = true

def placement (id : AccountId) : Placement := ⟨s.Hot id, s.Stubbed id, s.shardIndex id⟩

def Placed : Prop := ∀ id, (s.placement id).Placed

variable {derive : Derivations} {s s' : ShardedState} {id other : AccountId} {k j : Nat} {tree : StateTree} {a : Account}

theorem shard_setShard (s : ShardedState) (k j : Nat) (tree : StateTree) :
    (s.setShard k tree).shard j = if j = k then some tree else s.shard j := by
  unfold setShard shard
  by_cases zero : k = 0
  · rw [if_pos zero]
    by_cases same : j = k
    · rw [if_pos same, if_pos (same.trans zero)]
    · rw [if_neg same, if_neg (fun equal => same (equal.trans zero.symm)), if_neg (fun equal => same (equal.trans zero.symm))]
  · rw [if_neg zero]
    by_cases same : j = k
    · rw [if_pos same, if_neg (same ▸ zero)]
      rw [lookup_insert, if_pos same]
    · rw [if_neg same]
      rw [lookup_insert, if_neg same]

theorem shardIndex_setShard (s : ShardedState) (k : Nat) (tree : StateTree) :
    (s.setShard k tree).shardIndex = s.shardIndex := by
  unfold setShard
  split <;> rfl

def treeAt (k : Nat) : StateTree := (s.shard k).getD new

theorem treeAt_of_shard (there : s.shard k = some tree) : s.treeAt k = tree := by
  unfold treeAt
  rw [there]
  rfl

theorem treeAt_setShard (s : ShardedState) (k j : Nat) (t : StateTree) :
    (s.setShard k t).treeAt j = if j = k then t else s.treeAt j := by
  unfold treeAt
  rw [shard_setShard]
  split <;> rfl

theorem hot_iff_treeAt : s.Hot id k ↔ (s.treeAt k).contains id = true := by
  unfold Hot treeAt
  cases s.shard k with
  | none => simp [StateTree.contains, StateTree.get, StateTree.new]
  | some tree => simp

theorem stubbed_iff_treeAt : s.Stubbed id k ↔ (s.treeAt k).isStubbed id = true := by
  unfold Stubbed treeAt
  cases s.shard k with
  | none => simp [isStubbed, new]
  | some tree => simp

theorem treeAt_removeFrom (s : ShardedState) (k j : Nat) (id : AccountId) :
    (s.removeFrom derive k id).treeAt j = if j = k then (s.treeAt k).remove derive id else s.treeAt j := by
  unfold removeFrom
  cases there : s.shard k with
  | none =>
    have empty : s.treeAt k = new := by
      unfold treeAt
      rw [there]
      rfl
    split
    · rename_i same
      rw [same, empty]
      rfl
    · rfl
  | some tree =>
    rw [treeAt_setShard, treeAt_of_shard there]

variable (id) in
theorem placed_iff_of_others (placed : s.Placed) (hot : ∀ other, other ≠ id → ∀ k, s'.Hot other k ↔ s.Hot other k)
    (cold : ∀ other, other ≠ id → ∀ k, s'.Stubbed other k ↔ s.Stubbed other k)
    (index : ∀ other, other ≠ id → s'.shardIndex other = s.shardIndex other) : s'.Placed ↔ (s'.placement id).Placed := by
  constructor
  · exact fun placed => placed id
  · intro own other
    by_cases same : other = id
    · rw [same]
      exact own
    · exact (placed other).congr (hot other same) (cold other same) (index other same)

variable (t : StateTree)

theorem contains_remove : (t.remove derive id).contains other = true ↔ other ≠ id ∧ t.contains other = true := by
  unfold contains
  rw [get_remove]
  by_cases same : other = id
  · simp [same]
  · simp [same]

theorem isStubbed_remove : (t.remove derive id).isStubbed other = t.isStubbed other := by
  unfold isStubbed
  rw [stubs_remove]

theorem contains_insert_iff :
    (t.insert derive a).contains other = true ↔ other = a.idCom ∨ t.contains other = true := by
  rw [contains_insert]
  simp

theorem isStubbed_insert_iff :
    (t.insert derive a).isStubbed other = true ↔ other ≠ a.idCom ∧ t.isStubbed other = true := by
  rw [isStubbed_iff, isStubbed_iff]
  change (∃ stub, (t.stubs.erase a.idCom)[other]? = some stub) ↔ _
  rw [lookup_erase]
  by_cases same : other = a.idCom
  · simp [same]
  · simp [same]

theorem hot_removeFrom : (s.removeFrom derive k id).Hot other j ↔ s.Hot other j ∧ ¬(other = id ∧ j = k) := by
  rw [hot_iff_treeAt, hot_iff_treeAt, treeAt_removeFrom]
  by_cases same : j = k
  · rw [if_pos same, contains_remove, same]
    simp [and_comm]
  · simp [same]

theorem stubbed_removeFrom : (s.removeFrom derive k id).Stubbed other j ↔ s.Stubbed other j := by
  rw [stubbed_iff_treeAt, stubbed_iff_treeAt, treeAt_removeFrom]
  by_cases same : j = k
  · rw [if_pos same, isStubbed_remove, same]
  · rw [if_neg same]

theorem shardIndex_removeFrom (s : ShardedState) (k : Nat) (id : AccountId) :
    (s.removeFrom derive k id).shardIndex = s.shardIndex := by
  unfold removeFrom
  cases s.shard k with
  | none => rfl
  | some tree => exact shardIndex_setShard s k _

/-- The account comes into a shard, is indexed there and loses its stub there. -/
structure Lands (s s' : ShardedState) (id : AccountId) (k : Nat) : Prop where
  hot : ∀ other j, s'.Hot other j ↔ (other = id ∧ j = k) ∨ s.Hot other j
  cold : ∀ other j, s'.Stubbed other j ↔ s.Stubbed other j ∧ ¬(other = id ∧ j = k)
  index : ∀ other, s'.shardIndex other = if other = id then some k else s.shardIndex other

/-- After an account has landed in a shard, everything else being as it was, the state is placed exactly if the account was hot
in no other shard and is stubbed in no other one. -/
theorem Lands.placed_iff {mid : ShardedState} (lands : Lands mid s' id k) (placed : s.Placed)
    (kept : ∀ other, other ≠ id → (∀ j, mid.Hot other j ↔ s.Hot other j) ∧
      (∀ j, mid.Stubbed other j ↔ s.Stubbed other j) ∧ mid.shardIndex other = s.shardIndex other) :
    s'.Placed ↔ (∀ j, mid.Hot id j → j = k) ∧ ∀ j, mid.Stubbed id j → j = k := by
  rw [placed_iff_of_others id placed]
  · have index : s'.shardIndex id = some k := (lands.index id).trans (if_pos rfl)
    have here : s'.Hot id k := (lands.hot id k).mpr (.inl ⟨rfl, rfl⟩)
    constructor
    · intro own
      refine ⟨fun j hot => own.index_eq index ((lands.hot id j).mpr (.inr hot)), fun j stubbed => ?_⟩
      by_contra differ
      have cold : s'.Stubbed id j := (lands.cold id j).mpr ⟨stubbed, fun both => differ both.2⟩
      exact differ (own.apart k j here cold).symm
    · rintro ⟨alone, apart⟩
      apply (Placement.placed_single_iff (k := k) _ index).mpr
      · intro j cold
        exact apart j ((lands.cold id j).mp cold).1
      · intro j
        constructor
        · intro hot
          rcases (lands.hot id j).mp hot with ⟨-, same⟩ | before
          · exact same
          · exact alone j before
        · rintro rfl
          exact here
  · intro other differ j
    rw [lands.hot, (kept other differ).1]
    simp [differ]
  · intro other differ j
    rw [lands.cold, (kept other differ).2.1]
    simp [differ]
  · intro other differ
    rw [lands.index, if_neg differ]
    exact (kept other differ).2.2

theorem Lands.placed_iff_same (lands : Lands s s' id k) (placed : s.Placed) :
    s'.Placed ↔ (∀ j, s.Hot id j → j = k) ∧ ∀ j, s.Stubbed id j → j = k :=
  lands.placed_iff placed (fun _ _ => ⟨fun _ => Iff.rfl, fun _ => Iff.rfl, rfl⟩)

def place (derive : Derivations) (s : ShardedState) (k : Nat) (a : Account) : ShardedState :=
  let placed := s.setShard k (((s.shard k).getD new).insert derive a)
  { placed with shardIndex := update placed.shardIndex a.idCom (some k) }

theorem treeAt_place (v : ShardedState) (j k : Nat) (a : Account) :
    (v.place derive j a).treeAt k = if k = j then (v.treeAt j).insert derive a else v.treeAt k := treeAt_setShard v j k _

theorem place_lands (derive : Derivations) (s : ShardedState) (k : Nat) (a : Account) :
    Lands s (s.place derive k a) a.idCom k where
  hot other j := by
    rw [hot_iff_treeAt, hot_iff_treeAt, treeAt_place]
    by_cases same : j = k
    · rw [if_pos same, contains_insert_iff, same]
      simp
    · simp [same]
  cold other j := by
    rw [stubbed_iff_treeAt, stubbed_iff_treeAt, treeAt_place]
    by_cases same : j = k
    · rw [if_pos same, isStubbed_insert_iff, same]
      simp [and_comm]
    · simp [same]
  index other := by
    change update (s.setShard k _).shardIndex a.idCom (some k) other = _
    rw [update_apply, shardIndex_setShard]

def staleCopy (id : AccountId) : Option Nat :=
  if s.shardIndex id = none ∧ s.targetShard id ≠ 0 then some 0 else none

def indexedCopy (id : AccountId) (shard : Nat) : Option Nat := (s.shardIndex id).filter (fun old => old ≠ shard)

def vacated (derive : Derivations) (s : ShardedState) (gone : Option Nat) (id : AccountId) : ShardedState :=
  match gone with
  | none => s
  | some k => s.removeFrom derive k id

section

variable {gone : Option Nat}

theorem hot_vacated : (s.vacated derive gone id).Hot other j ↔ s.Hot other j ∧ ¬(other = id ∧ gone = some j) := by
  cases gone with
  | none => simp [vacated]
  | some k =>
    rw [Option.some.injEq, eq_comm (a := k)]
    exact hot_removeFrom

theorem stubbed_vacated : (s.vacated derive gone id).Stubbed other j ↔ s.Stubbed other j := by
  cases gone with
  | none => exact Iff.rfl
  | some k => exact stubbed_removeFrom

theorem shardIndex_vacated (derive : Derivations) (s : ShardedState) (gone : Option Nat) (id : AccountId) :
    (s.vacated derive gone id).shardIndex = s.shardIndex := by
  cases gone with
  | none => rfl
  | some k => exact shardIndex_removeFrom s k id

theorem vacated_place_placed_iff (placed : s.Placed) : ((s.vacated derive gone a.idCom).place derive k a).Placed ↔
    (∀ j, s.Hot a.idCom j → gone ≠ some j → j = k) ∧ ∀ j, s.Stubbed a.idCom j → j = k := by
  rw [(place_lands derive _ k a).placed_iff placed]
  · simp only [hot_vacated, stubbed_vacated, true_and, and_imp, ne_eq]
  · intro other differ
    refine ⟨fun j => ?_, fun j => stubbed_vacated, congrFun (shardIndex_vacated derive s gone _) other⟩
    simp [hot_vacated, differ]

end

theorem targetShard_indexed (index : s.shardIndex id = some k) : s.targetShard id = k := by
  unfold targetShard
  rw [index]

theorem targetShard_unindexed (index : s.shardIndex id = none) : s.targetShard id = deterministicShard id := by
  unfold targetShard
  rw [index]

theorem insert_vacated (derive : Derivations) (s : ShardedState) (a : Account) :
    s.insert derive a = (s.vacated derive (s.staleCopy a.idCom) a.idCom).place derive (s.targetShard a.idCom) a := by
  unfold insert staleCopy
  cases index : s.shardIndex a.idCom with
  | some old =>
    simp only [index, targetShard_indexed index, ne_eq, not_true_eq_false, if_false, reduceCtorEq, false_and]
    rfl
  | none =>
    simp only [index, true_and]
    split <;> rfl

theorem insertIntoShard_vacated (derive : Derivations) (s : ShardedState) (k : Nat) (a : Account) :
    s.insertIntoShard derive k a = (s.vacated derive (s.indexedCopy a.idCom k) a.idCom).place derive k a := by
  unfold insertIntoShard indexedCopy
  cases index : s.shardIndex a.idCom with
  | some old =>
    simp only [index, Option.filter, decide_eq_true_eq]
    split <;> rfl
  | none =>
    simp only [index]
    rfl

theorem insert_placed_iff (placed : s.Placed) (a : Account) :
    (s.insert derive a).Placed ↔ ∀ j, s.Stubbed a.idCom j → j = s.targetShard a.idCom := by
  have own := placed a.idCom
  rw [insert_vacated, vacated_place_placed_iff placed]
  refine ⟨fun both => both.2, fun apart => ⟨fun j hot kept => ?_, apart⟩⟩
  cases index : s.shardIndex a.idCom with
  | some k => rw [targetShard_indexed index, own.index_eq index hot]
  | none =>
    -- what is not indexed is hot in the default shard alone
    have zero := own.unindexed j hot index
    by_contra differ
    rw [zero] at differ kept
    exact kept (if_pos ⟨index, Ne.symm differ⟩)

theorem insertIntoShard_placed_iff (placed : s.Placed) (k : Nat) (a : Account) :
    (s.insertIntoShard derive k a).Placed ↔
      (s.shardIndex a.idCom = none → s.Hot a.idCom 0 → k = 0) ∧ ∀ j, s.Stubbed a.idCom j → j = k := by
  have own := placed a.idCom
  rw [insertIntoShard_vacated, vacated_place_placed_iff placed]
  refine and_congr_left (fun _ => ?_)
  unfold indexedCopy
  cases index : s.shardIndex a.idCom with
  | some old =>
    refine iff_of_true (fun j hot kept => ?_) (fun none_ => by cases none_)
    have same := own.index_eq index hot
    by_contra differ
    exact kept (by simp [← same, differ])
  | none =>
    refine ⟨fun alone _ hot => (alone 0 hot (by simp)).symm, fun alone j hot _ => ?_⟩
    have zero := own.unindexed j hot index
    rw [zero] at hot ⊢
    exact (alone rfl hot).symm

theorem findShard_some {p : StateTree → Bool} (found : s.findShard p = some k) :
    ∃ tree, s.shard k = some tree ∧ p tree = true := by
  have met := List.find?_some found
  cases there : s.shard k with
  | none =>
    rw [there] at met
    cases met
  | some tree =>
    rw [there] at met
    exact ⟨tree, rfl, met⟩

theorem mem_shardIds (there : s.shard k = some tree) : k ∈ s.shardIds := by
  unfold shard at there
  by_cases zero : k = 0
  · rw [zero]
    exact List.mem_cons_self
  · rw [if_neg zero] at there
    apply List.mem_cons_of_mem
    rw [Std.TreeMap.mem_keys, Std.TreeMap.mem_iff_isSome_getElem?, there]
    rfl

/-- An account leaves the hot tier of a shard and the index, and may leave a stub. -/
structure Leaves (s s' : ShardedState) (id : AccountId) (k : Nat) : Prop where
  hot : ∀ other j, s'.Hot other j ↔ s.Hot other j ∧ ¬(other = id ∧ j = k)
  cold : ∀ other, other ≠ id → ∀ j, s'.Stubbed other j ↔ s.Stubbed other j
  index : ∀ other, s'.shardIndex other = if other = id then none else s.shardIndex other

theorem Leaves.placed (leaves : Leaves s s' id k) (placed : s.Placed) (here : s.Hot id k) : s'.Placed := by
  apply (placed_iff_of_others id placed ?_ leaves.cold ?_).mpr
  · apply Placement.placed_of_gone
    · intro j hot
      obtain ⟨before, elsewhere⟩ := (leaves.hot id j).mp hot
      exact elsewhere ⟨rfl, (placed id).alone j k before here⟩
    · exact (leaves.index id).trans (if_pos rfl)
  · intro other differ j
    rw [leaves.hot]
    simp [differ]
  · intro other differ
    exact (leaves.index other).trans (if_neg differ)

theorem remove_placed (placed : s.Placed) (id : AccountId) : (s.remove derive id).Placed := by
  unfold remove
  cases found : s.findShard (·.contains id) with
  | none => exact placed
  | some k =>
    have leaves : Leaves s ((s.removeFrom derive k id).unindexed id) id k := by
      refine ⟨fun other j => hot_removeFrom, fun other _ j => stubbed_removeFrom, fun other => ?_⟩
      change update (s.removeFrom derive k id).shardIndex id none other = _
      rw [update_apply, shardIndex_removeFrom]
    exact leaves.placed placed (findShard_some found)

theorem contains_expireAccount (t : StateTree) (slot : Nat) :
    (t.expireAccount derive id slot).contains other = true ↔ other ≠ id ∧ t.contains other = true := by
  unfold contains
  rw [get_expireAccount]
  by_cases same : other = id
  · simp [same]
  · simp [same]

theorem expireAccount_placed (placed : s.Placed) (id : AccountId) (slot : Nat) : (s.expireAccount derive id slot).Placed := by
  unfold expireAccount
  cases found : s.findShard (·.contains id) with
  | none => exact placed
  | some k =>
    obtain ⟨tree, there, here⟩ := findShard_some found
    dsimp only
    rw [there]
    have leaves : Leaves s ((s.setShard k (tree.expireAccount derive id slot)).unindexed id) id k := by
      refine ⟨fun other j => ?_, fun other differ j => ?_, fun other => ?_⟩
      · change (s.setShard k _).Hot other j ↔ _
        rw [hot_iff_treeAt, hot_iff_treeAt, treeAt_setShard]
        by_cases same : j = k
        · rw [if_pos same, contains_expireAccount, same, treeAt_of_shard there]
          simp [and_comm]
        · simp [same]
      · change (s.setShard k _).Stubbed other j ↔ _
        rw [stubbed_iff_treeAt, stubbed_iff_treeAt, treeAt_setShard]
        by_cases same : j = k
        · have kept := (get_expireAccount derive tree id slot).trans (if_neg differ)
          rw [if_pos same, same, treeAt_of_shard there, isStubbed_iff, isStubbed_iff,
            ((expireAccount_swept tree id slot other).kept kept).2.2]
        · rw [if_neg same]
      · change update (s.setShard k _).shardIndex id none other = _
        rw [update_apply, shardIndex_setShard]
    exact leaves.placed placed ⟨tree, there, here⟩

theorem stubbed_insertStub (stub : AccountStub) :
    (s.insertStub stub).Stubbed other j ↔ (other = stub.idCom ∧ j = 0) ∨ s.Stubbed other j := by
  have cold : ∀ t : StateTree, (t.insertStub stub).isStubbed other = true ↔ other = stub.idCom ∨ t.isStubbed other = true := by
    intro t
    rw [isStubbed_iff, isStubbed_iff]
    change (∃ found, (t.stubs.insert stub.idCom stub)[other]? = some found) ↔ _
    rw [lookup_insert]
    by_cases same : other = stub.idCom
    · simp [same]
    · simp [same]
  unfold Stubbed shard insertStub
  by_cases zero : j = 0
  · simp [zero, cold]
  · simp [zero]

theorem hot_insertStub (stub : AccountStub) : (s.insertStub stub).Hot other j ↔ s.Hot other j := by
  have same : ∀ t : StateTree, (t.insertStub stub).contains other = t.contains other := fun _ => rfl
  unfold Hot shard insertStub
  by_cases zero : j = 0
  · simp [zero, same]
  · simp [zero]

theorem insertStub_placed_iff (placed : s.Placed) (stub : AccountStub) :
    (s.insertStub stub).Placed ↔ ∀ j, s.Hot stub.idCom j → j = 0 := by
  rw [placed_iff_of_others stub.idCom placed]
  · constructor
    · intro own j hot
      exact own.apart j 0 ((hot_insertStub stub).mpr hot) ((stubbed_insertStub stub).mpr (.inl ⟨rfl, rfl⟩))
    · intro home
      have own := placed stub.idCom
      refine ⟨?_, ?_, ?_, ?_⟩
      · intro i j first second
        exact own.alone i j ((hot_insertStub stub).mp first) ((hot_insertStub stub).mp second)
      · intro k found
        exact (hot_insertStub stub).mpr (own.indexed k found)
      · intro k hot
        exact own.unindexed k ((hot_insertStub stub).mp hot)
      · intro i j hot cold
        have before := (hot_insertStub stub).mp hot
        rcases (stubbed_insertStub stub).mp cold with ⟨-, zero⟩ | stubbed
        · rw [home i before, zero]
        · exact own.apart i j before stubbed
  · intro other _ j
    exact hot_insertStub stub
  · intro other differ j
    rw [stubbed_insertStub]
    simp [differ]
  · exact fun _ _ => rfl

theorem resurrectAccount_cases (derive : Derivations) (s : ShardedState) (proof : ResurrectionProof) (slot : Nat) :
    (∃ text, s.resurrectAccount derive proof slot = .error text) ∨
      ∃ k s', s.resurrectAccount derive proof slot = .ok s' ∧ s.Stubbed proof.account.idCom k ∧
        Lands s s' proof.account.idCom k := by
  unfold resurrectAccount
  cases found : s.findShard (·.isStubbed proof.account.idCom) with
  | none => exact .inl ⟨_, rfl⟩
  | some k =>
    obtain ⟨tree, there, stubbed⟩ := findShard_some found
    dsimp only
    rw [there]
    dsimp only
    rcases State.resurrectAccount_cases derive tree proof slot with ⟨text, refused⟩ | ⟨-, done⟩
    · rw [refused]
      exact .inl ⟨text, rfl⟩
    rw [done]
    refine .inr ⟨k, _, rfl, ⟨tree, there, stubbed⟩, ?_⟩
    refine ⟨fun other j => ?_, fun other j => ?_, fun other => ?_⟩
    · change (s.setShard k (resurrected derive tree proof slot)).Hot other j ↔ _
      rw [hot_iff_treeAt, hot_iff_treeAt, treeAt_setShard]
      by_cases same : j = k
      · have get : (resurrected derive tree proof slot).get other = _ := resurrected_get proof slot other
        rw [if_pos same, same, treeAt_of_shard there]
        unfold contains
        rw [get]
        by_cases own : other = proof.account.idCom
        · simp [own]
        · simp [own]
      · simp [same]
    · change (s.setShard k (resurrected derive tree proof slot)).Stubbed other j ↔ _
      rw [stubbed_iff_treeAt, stubbed_iff_treeAt, treeAt_setShard]
      by_cases same : j = k
      · rw [if_pos same, same, treeAt_of_shard there, isStubbed_iff, isStubbed_iff, resurrected_stubs]
        by_cases own : other = proof.account.idCom
        · simp [own]
        · simp [own]
      · simp [same]
    · change update (s.setShard k _).shardIndex proof.account.idCom (some k) other = _
      rw [update_apply, shardIndex_setShard]

def DormantIn (s : ShardedState) (slot period : Nat) (id : AccountId) (k : Nat) : Prop :=
  ∃ tree a, s.shard k = some tree ∧ tree.get id = some a ∧ a.Dormant slot period

section Sweep

variable {slot period : Nat}

theorem shard_sweepExpired (k : Nat) :
    (s.sweepExpired derive slot period).shard k = (s.shard k).map (·.sweepExpired derive slot period) := by
  unfold shard sweepExpired
  by_cases zero : k = 0
  · rw [if_pos zero, if_pos zero]
    rfl
  · rw [if_neg zero, if_neg zero]
    exact Std.TreeMap.getElem?_map

theorem DormantIn.hot (dormant : s.DormantIn slot period id k) : s.Hot id k := by
  obtain ⟨tree, a, there, found, -⟩ := dormant
  exact ⟨tree, there, contains_of_get found⟩

theorem dormantIn_iff_treeAt : s.DormantIn slot period id k ↔ ∃ a, (s.treeAt k).get id = some a ∧ a.Dormant slot period := by
  unfold DormantIn treeAt
  cases s.shard k with
  | none => simp [StateTree.get, StateTree.new]
  | some tree => simp

theorem treeAt_sweepExpired (k : Nat) :
    (s.sweepExpired derive slot period).treeAt k = (s.treeAt k).sweepExpired derive slot period := by
  unfold treeAt
  rw [shard_sweepExpired]
  cases s.shard k <;> rfl

theorem hot_sweepExpired : (s.sweepExpired derive slot period).Hot id k ↔ s.Hot id k ∧ ¬s.DormantIn slot period id k := by
  rw [hot_iff_treeAt, hot_iff_treeAt, treeAt_sweepExpired, dormantIn_iff_treeAt]
  by_cases dormant : ∃ a, (s.treeAt k).get id = some a ∧ a.Dormant slot period
  · obtain ⟨a, found, asleep⟩ := dormant
    have gone := (sweepExpired_dormant derive slot period found asleep).1
    simp [contains, gone, found, asleep]
  · have kept := (sweepExpired_kept derive slot period fun a found asleep => dormant ⟨a, found, asleep⟩).1
    simp only [contains, kept, dormant, not_false_eq_true, and_true]

theorem stubbed_sweepExpired :
    (s.sweepExpired derive slot period).Stubbed id k ↔ s.Stubbed id k ∨ s.DormantIn slot period id k := by
  rw [stubbed_iff_treeAt, stubbed_iff_treeAt, treeAt_sweepExpired, dormantIn_iff_treeAt]
  by_cases dormant : ∃ a, (s.treeAt k).get id = some a ∧ a.Dormant slot period
  · obtain ⟨a, found, asleep⟩ := dormant
    have expired := (sweepExpired_dormant derive slot period found asleep).2.2
    simp [expired, found, asleep]
  · have kept := (sweepExpired_kept derive slot period fun a found asleep => dormant ⟨a, found, asleep⟩).2.2
    simp only [isStubbed_iff, kept, dormant, or_false]

theorem sweepExpired_placed_iff (placed : s.Placed) :
    (s.sweepExpired derive slot period).Placed ↔ ∀ id k, s.shardIndex id = some k → ¬s.DormantIn slot period id k := by
  constructor
  · intro after id k index
    exact (hot_sweepExpired.mp ((after id).indexed k index)).2
  · intro awake id
    have own := placed id
    refine ⟨?_, ?_, ?_, ?_⟩
    · intro i j first second
      exact own.alone i j (hot_sweepExpired.mp first).1 (hot_sweepExpired.mp second).1
    · intro k found
      exact hot_sweepExpired.mpr ⟨own.indexed k found, awake id k found⟩
    · intro k hot
      exact own.unindexed k (hot_sweepExpired.mp hot).1
    · intro i j hot cold
      have before := (hot_sweepExpired.mp hot).1
      rcases stubbed_sweepExpired.mp cold with stubbed | dormant
      · exact own.apart i j before stubbed
      · exact own.alone i j before dormant.hot

end Sweep

theorem fromStateTree_placed (tree : StateTree) : (fromStateTree tree).Placed := by
  have only : ∀ {k : Nat} {found : StateTree}, (fromStateTree tree).shard k = some found → k = 0 := by
    intro k found there
    unfold fromStateTree shard at there
    by_cases zero : k = 0
    · exact zero
    · rw [if_neg zero] at there
      simp at there
  intro id
  refine ⟨?_, ?_, ?_, ?_⟩
  · rintro i j ⟨_, first, -⟩ ⟨_, second, -⟩
    rw [only first, only second]
  · intro k found
    cases found
  · rintro k ⟨_, there, -⟩ _
    exact only there
  · rintro i j ⟨_, first, -⟩ ⟨_, second, -⟩
    rw [only first, only second]

inductive ShardOp where
  | insert (a : Account)
  | insertIntoShard (shard : Nat) (a : Account)
  | remove (id : AccountId)
  | insertStub (stub : AccountStub)
  | expireAccount (id : AccountId) (slot : Nat)
  | resurrectAccount (proof : ResurrectionProof) (slot : Nat)
  | sweepExpired (slot period : Nat)

def ShardOp.apply (derive : Derivations) (s : ShardedState) : ShardOp → ShardedState
  | insert a => s.insert derive a
  | insertIntoShard shard a => s.insertIntoShard derive shard a
  | remove id => s.remove derive id
  | insertStub stub => s.insertStub stub
  | expireAccount id slot => s.expireAccount derive id slot
  | resurrectAccount proof slot =>
    match s.resurrectAccount derive proof slot with
    | .ok after => after
    | .error _ => s
  | sweepExpired slot period => s.sweepExpired derive slot period

/-- What keeps every account in one place. An account comes only where no stub of it is elsewhere, and by an explicit
shard only if the default shard does not have it unindexed; a stub comes only for an account hot in no other shard; a
sweep expires only what is not indexed. -/
def ShardOp.InPlace (derive : Derivations) (s : ShardedState) : ShardOp → Prop
  | insert a => ∀ j, s.Stubbed a.idCom j → j = s.targetShard a.idCom
  | insertIntoShard shard a =>
    (s.shardIndex a.idCom = none → s.Hot a.idCom 0 → shard = 0) ∧ ∀ j, s.Stubbed a.idCom j → j = shard
  | remove _ => True
  | insertStub stub => ∀ j, s.Hot stub.idCom j → j = 0
  | expireAccount _ _ => True
  | resurrectAccount proof slot =>
    (s.resurrectAccount derive proof slot).isOk = true →
      ∀ j k, s.Stubbed proof.account.idCom j → s.Stubbed proof.account.idCom k → j = k
  | sweepExpired slot period => ∀ id k, s.shardIndex id = some k → ¬s.DormantIn slot period id k

theorem step_placed_iff (placed : s.Placed) (op : ShardOp) : (op.apply derive s).Placed ↔ op.InPlace derive s := by
  cases op with
  | insert a => exact insert_placed_iff placed a
  | insertIntoShard shard a => exact insertIntoShard_placed_iff placed shard a
  | remove id => exact iff_of_true (remove_placed placed id) trivial
  | insertStub stub => exact insertStub_placed_iff placed stub
  | expireAccount id slot => exact iff_of_true (expireAccount_placed placed id slot) trivial
  | resurrectAccount proof slot =>
    rcases resurrectAccount_cases derive s proof slot with ⟨text, refused⟩ | ⟨k, s', done, stubbed, lands⟩
    · simp only [ShardOp.apply, ShardOp.InPlace, refused]
      exact iff_of_true placed (fun accepted => by cases accepted)
    · simp only [ShardOp.apply, ShardOp.InPlace, done]
      rw [lands.placed_iff_same placed]
      constructor
      · rintro ⟨-, apart⟩ - i j first second
        rw [apart i first, apart j second]
      · intro apart
        refine ⟨fun j hot => (placed _).apart j k hot stubbed, fun j cold => apart rfl j k cold stubbed⟩
  | sweepExpired slot period => exact sweepExpired_placed_iff placed

/-- From any tree, every account is in one place after every operation of a run if and only if every operation keeps it
there. -/
theorem shard_placement_iff (derive : Derivations) (tree : StateTree) (ops : List ShardOp) :
    (∀ n, (run (ShardOp.apply derive) (fromStateTree tree) (ops.take n)).Placed) ↔
      Meets (ShardOp.apply derive) (fun s op => op.InPlace derive s) (fromStateTree tree) ops :=
  invariant_iff_meets (fun _ op placed => step_placed_iff placed op) (fromStateTree_placed tree)

end ShardedState

namespace SmallShards

open ShardedState SmallAlias

def resident : Account := Account.new ⟨1⟩

def start : ShardedState := fromStateTree (new.insert derivations resident)

def moved : ShardedState := run (ShardOp.apply derivations) start [.insertIntoShard 7 resident]

def returned : ShardedState :=
  run (ShardOp.apply derivations) (fromStateTree .new) [.insertIntoShard 7 resident, .expireAccount ⟨1⟩ 5, .insert resident]

def swept : ShardedState := run (ShardOp.apply derivations) start [.insert resident, .sweepExpired 100 50]

end SmallShards

open SmallShards

/-- The move leaves the copy in the default shard. The account that comes back is in the default shard, its own, while its stub
stays in shard 7. After the sweep the index points to a shard that has the stub only. -/
theorem account_in_two_shards :
    ((moved.getIn 0 ⟨1⟩).isSome = true ∧ (moved.getIn 7 ⟨1⟩).isSome = true) ∧
    ((returned.getIn 0 ⟨1⟩).isSome = true ∧ (returned.shard 7).map (·.isStubbed ⟨1⟩) = some true) ∧
    swept.shardIndex ⟨1⟩ = some 0 ∧ (swept.getIn 0 ⟨1⟩).isSome = false := by
  decide +kernel

end AceChain.State
