import AceChain.State.Placement

namespace AceChain.State

open Lib

theorem find?_sorted {l : List Nat} (sorted : l.Pairwise (· ≤ ·)) {q : Nat → Bool} {k : Nat} :
    l.find? q = some k ↔ (k ∈ l ∧ q k = true) ∧ ∀ j ∈ l, q j = true → k ≤ j := by
  induction l with
  | nil => simp
  | cons head rest ih =>
    obtain ⟨least, later⟩ := List.pairwise_cons.mp sorted
    cases met : q head with
    | true =>
      rw [List.find?_cons_of_pos met, Option.some.injEq]
      constructor
      · rintro rfl
        refine ⟨⟨List.mem_cons_self, met⟩, ?_⟩
        intro j member _
        rcases List.mem_cons.mp member with rfl | member
        · exact Nat.le_refl _
        · exact least j member
      · rintro ⟨⟨member, -⟩, first⟩
        rcases List.mem_cons.mp member with same | member
        · exact same.symm
        · exact Nat.le_antisymm (least k member) (first head List.mem_cons_self met)
    | false =>
      rw [List.find?_cons_of_neg (by simp [met]), ih later]
      simp only [List.mem_cons, forall_eq_or_imp, met, Bool.false_eq_true, false_implies, true_and, and_congr_left_iff]
      intro _ here
      have differ : k ≠ head := by
        rintro rfl
        rw [met] at here
        cases here
      simp [differ]

namespace ShardedState

variable (s : ShardedState)

def storageIn (shard : Nat) (id : AccountId) (slot : Hash) : Hash :=
  ((s.shard shard).map (·.getStorage id slot)).getD 0

variable (id : AccountId)

def getStorage (slot : Hash) : Hash :=
  match s.findShard (·.contains id) with
  | some shard => s.storageIn shard id slot
  | none => 0

def holds (shard : Nat) : Bool := ((s.shard shard).map (·.contains id)).getD false

def readAfter (gone : Option Nat) (target : Nat) : Nat :=
  match s.shardIds.find? (fun shard => s.holds id shard && gone != some shard) with
  | some shard => min shard target
  | none => target

def StorageAwaits (gone : Option Nat) (target : Nat) : Prop :=
  ∀ slot, s.storageIn (s.readAfter id gone target) id slot = s.getStorage id slot

variable {derive : Derivations} {s s' : ShardedState} {id other : AccountId} {k j : Nat} {a : Account} {slot : Hash}
  {gone : Option Nat}

theorem shardIds_sorted (s : ShardedState) : s.shardIds.Pairwise (· ≤ ·) := by
  apply List.pairwise_cons.mpr
  refine ⟨fun _ _ => Nat.zero_le _, ?_⟩
  have ordered := Std.TreeMap.ordered_keys (t := s.otherShards)
  apply ordered.imp
  intro m n less
  rw [Nat.compare_eq_lt] at less
  exact Nat.le_of_lt less

theorem holds_iff : s.holds id k = true ↔ s.Hot id k := by
  unfold holds Hot
  cases s.shard k <;> simp

theorem Hot.listed (hot : s.Hot id k) : k ∈ s.shardIds := by
  obtain ⟨tree, there, -⟩ := hot
  exact mem_shardIds there

theorem find_holder {q : Nat → Bool} :
    s.shardIds.find? (fun shard => s.holds id shard && q shard) = some k ↔
      (s.Hot id k ∧ q k = true) ∧ ∀ j, s.Hot id j → q j = true → k ≤ j := by
  rw [find?_sorted s.shardIds_sorted]
  simp only [Bool.and_eq_true, holds_iff]
  constructor
  · rintro ⟨⟨-, here⟩, first⟩
    exact ⟨here, fun j hot met => first j hot.listed ⟨hot, met⟩⟩
  · rintro ⟨here, first⟩
    exact ⟨⟨here.1.listed, here⟩, fun j _ both => first j both.1 both.2⟩

theorem find_holder_none {q : Nat → Bool} :
    s.shardIds.find? (fun shard => s.holds id shard && q shard) = none ↔ ∀ j, s.Hot id j → ¬q j = true := by
  rw [List.find?_eq_none]
  simp only [Bool.and_eq_true, holds_iff, not_and]
  exact ⟨fun all j hot => all j hot.listed hot, fun all j _ hot => all j hot⟩

theorem reader_some : s.findShard (·.contains id) = some k ↔ s.Hot id k ∧ ∀ j, s.Hot id j → k ≤ j := by
  have found : s.shardIds.find? (fun shard => s.holds id shard && true) = some k ↔ _ := find_holder (q := fun _ => true)
  simp only [Bool.and_true, and_true, forall_const] at found
  exact found

theorem reader_congr (same : ∀ j, s'.Hot id j ↔ s.Hot id j) : s'.findShard (·.contains id) = s.findShard (·.contains id) := by
  apply Option.ext
  intro k
  rw [reader_some, reader_some]
  simp only [same]

/-- An account comes into shard `k`, the copy in `gone` goes, and no other storage changes. -/
structure Moves (s s' : ShardedState) (id : AccountId) (gone : Option Nat) (k : Nat) : Prop where
  hot : ∀ other j, s'.Hot other j ↔ (other = id ∧ j = k) ∨ s.Hot other j ∧ ¬(other = id ∧ gone = some j)
  storage : ∀ other j slot, ¬(other = id ∧ gone = some j) → s'.storageIn j other slot = s.storageIn j other slot
  apart : gone ≠ some k

section

variable (moves : Moves s s' id gone k)

include moves

theorem Moves.reader : s'.findShard (·.contains id) = some (s.readAfter id gone k) := by
  have hot : ∀ j, s'.Hot id j ↔ j = k ∨ s.Hot id j ∧ gone ≠ some j := by
    intro j
    rw [moves.hot]
    simp
  rw [reader_some]
  unfold readAfter
  cases found : s.shardIds.find? (fun shard => s.holds id shard && gone != some shard) with
  | none =>
    have nowhere := find_holder_none.mp found
    simp only [bne_iff_ne] at nowhere
    refine ⟨(hot k).mpr (.inl rfl), ?_⟩
    intro j here
    rcases (hot j).mp here with rfl | ⟨before, kept⟩
    · exact Nat.le_refl _
    · exact absurd kept (nowhere j before)
  | some first =>
    obtain ⟨⟨here, kept⟩, least⟩ := find_holder.mp found
    simp only [bne_iff_ne] at kept least
    dsimp only
    constructor
    · rcases Nat.le_total first k with le | le
      · rw [Nat.min_eq_left le]
        exact (hot first).mpr (.inr ⟨here, kept⟩)
      · rw [Nat.min_eq_right le]
        exact (hot k).mpr (.inl rfl)
    · intro j there
      rcases (hot j).mp there with rfl | ⟨before, kept⟩
      · exact Nat.min_le_right _ _
      · exact Nat.le_trans (Nat.min_le_left _ _) (least j before kept)

theorem Moves.readAfter_ne : gone ≠ some (s.readAfter id gone k) := by
  obtain ⟨here, -⟩ := reader_some.mp moves.reader
  rcases (moves.hot id _).mp here with ⟨-, same⟩ | ⟨-, kept⟩
  · rw [same]
    exact moves.apart
  · exact fun equal => kept ⟨rfl, equal⟩

theorem Moves.getStorage_self (slot : Hash) :
    s'.getStorage id slot = s.storageIn (s.readAfter id gone k) id slot := by
  unfold getStorage
  rw [moves.reader]
  exact moves.storage id _ slot (fun both => moves.readAfter_ne both.2)

theorem Moves.getStorage_other (differ : other ≠ id) (slot : Hash) :
    s'.getStorage other slot = s.getStorage other slot := by
  have same : s'.findShard (·.contains other) = s.findShard (·.contains other) :=
    reader_congr fun j => by
      rw [moves.hot]
      simp [differ]
  unfold getStorage
  rw [same]
  cases s.findShard (·.contains other) with
  | none => rfl
  | some j => exact moves.storage other j slot (fun both => differ both.1)

theorem Moves.storage_iff :
    (∀ other slot, s'.getStorage other slot = s.getStorage other slot) ↔ s.StorageAwaits id gone k := by
  constructor
  · intro kept slot
    rw [← moves.getStorage_self]
    exact kept id slot
  · intro awaits other slot
    by_cases same : other = id
    · subst same
      rw [moves.getStorage_self]
      exact awaits slot
    · exact moves.getStorage_other same slot

end

theorem storageIn_eq (s : ShardedState) (k : Nat) : s.storageIn k id slot = (s.treeAt k).getStorage id slot := by
  unfold storageIn treeAt
  cases s.shard k <;> rfl

theorem storageIn_place (s : ShardedState) (k : Nat) (a : Account) :
    (s.place derive k a).storageIn j id slot = s.storageIn j id slot := by
  rw [storageIn_eq, storageIn_eq, treeAt_place]
  by_cases same : j = k
  · rw [if_pos same, same]
    rfl
  · rw [if_neg same]

theorem storageIn_removeFrom (kept : ¬(other = id ∧ j = k)) :
    (s.removeFrom derive k id).storageIn j other slot = s.storageIn j other slot := by
  rw [storageIn_eq, storageIn_eq, treeAt_removeFrom]
  by_cases same : j = k
  · have differ : other ≠ id := fun equal => kept ⟨equal, same⟩
    rw [if_pos same, same, getStorage_eq, getStorage_eq]
    unfold StateTree.remove
    split
    · change (((s.treeAt k).contractStorage.erase id)[other]?.getD ∅)[slot]?.getD 0 = _
      rw [lookup_erase, if_neg differ]
    · rfl
  · rw [if_neg same]

theorem storageIn_vacated (kept : ¬(other = id ∧ gone = some j)) :
    (s.vacated derive gone id).storageIn j other slot = s.storageIn j other slot := by
  cases gone with
  | none => rfl
  | some k => exact storageIn_removeFrom fun both => kept ⟨both.1, congrArg some both.2.symm⟩

theorem vacated_place_moves (s : ShardedState) (a : Account) (apart : gone ≠ some k) :
    Moves s ((s.vacated derive gone a.idCom).place derive k a) a.idCom gone k where
  hot other j := by rw [(place_lands derive _ k a).hot, hot_vacated]
  storage other j slot kept := by rw [storageIn_place, storageIn_vacated kept]
  apart := apart

theorem insert_moves (s : ShardedState) (a : Account) :
    Moves s (s.insert derive a) a.idCom (s.staleCopy a.idCom) (s.targetShard a.idCom) := by
  rw [insert_vacated]
  apply vacated_place_moves
  unfold staleCopy
  split <;> rename_i stale
  · exact fun same => stale.2 (Option.some.inj same).symm
  · simp

theorem insertIntoShard_moves (s : ShardedState) (k : Nat) (a : Account) :
    Moves s (s.insertIntoShard derive k a) a.idCom (s.indexedCopy a.idCom k) k := by
  rw [insertIntoShard_vacated]
  apply vacated_place_moves
  intro same
  obtain ⟨-, differ⟩ := Option.filter_eq_some_iff.mp same
  simp at differ

/-- An insertion keeps every storage read exactly if the shard the account is read from afterwards already has the storage the
account is read with. -/
theorem insert_keeps_storage_iff (derive : Derivations) (s : ShardedState) (a : Account) (shard : Nat) :
    ((∀ id slot, (s.insert derive a).getStorage id slot = s.getStorage id slot) ↔
      s.StorageAwaits a.idCom (s.staleCopy a.idCom) (s.targetShard a.idCom)) ∧
    ((∀ id slot, (s.insertIntoShard derive shard a).getStorage id slot = s.getStorage id slot) ↔
      s.StorageAwaits a.idCom (s.indexedCopy a.idCom shard) shard) :=
  ⟨(insert_moves s a).storage_iff, (insertIntoShard_moves s shard a).storage_iff⟩

end ShardedState

namespace SmallShards

open ShardedState SmallAlias

def newcomer : Account := Account.new ⟨BitVec.ofNat 256 (7 * 2 ^ 240)⟩

def stored : ShardedState :=
  fromStateTree ((StateTree.new.insert derivations newcomer).setStorage newcomer.idCom 1 42)

/-- An update of the account takes its storage away, and so does a move out of the shard it is indexed in. -/
theorem storage_lost_on_update :
    stored.getStorage newcomer.idCom 1 = 42 ∧ (stored.insert derivations newcomer).getStorage newcomer.idCom 1 = 0 ∧
    (({ stored with shardIndex := fun _ => some 0 } : ShardedState).insertIntoShard derivations 7 newcomer).getStorage
      newcomer.idCom 1 = 0 := by
  decide +kernel

end SmallShards

end AceChain.State
