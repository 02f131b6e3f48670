import AceChain.Engine.Transfer
import AceChain.State.Placement
import AceChain.State.TreePersistence

namespace AceChain.State

open AceChain.Runtime Lib Hfi StateTree StateDb StateTree SmallRows Table

variable {codec : RowCodec} {derive : Derivations} {sha : List UInt8 → Hash} {t u : StateTree} {id owner : AccountId}
  {a : Account}

section Aliases

def Before (id other : AccountId) : Prop := compare (hashBytes id.bytes) (hashBytes other.bytes) = .lt

theorem Before.asymm {other : AccountId} (before : Before id other) : ¬Before other id := by
  intro after
  have swapped : compare (hashBytes other.bytes) (hashBytes id.bytes) =
      (compare (hashBytes id.bytes) (hashBytes other.bytes)).swap :=
    Std.OrientedCmp.eq_swap
  unfold Before at before after
  rw [swapped, before] at after
  cases after

structure FirstHolder (derive : Derivations) (t : StateTree) (owner : AccountId) (k : Alias) : Prop where
  holds : t.Holds derive owner k
  first : ∀ other, t.Holds derive other k → other = owner ∨ Before owner other

/-- Accounts that come into an empty tree in the order of their keys. -/
structure FirstCome (derive : Derivations) (accounts : List Account) (u : StateTree) : Prop where
  get : ∀ id a, u.get id = some a ↔ a ∈ accounts ∧ a.idCom = id
  resolve : ∀ k owner, u.resolve k = some owner ↔ FirstHolder derive u owner k
  bound : ∀ k, (∃ owner, u.Holds derive owner k) → u.resolve k ≠ none

theorem FirstCome.nil : FirstCome derive [] new where
  get id a := by
    constructor
    · intro found
      cases found
    · rintro ⟨member, -⟩
      cases member
  resolve k owner := by
    constructor
    · intro found
      cases k <;> cases found
    · rintro ⟨⟨a, found, -⟩, -⟩
      cases found
  bound k held := by
    obtain ⟨owner, a, found, -⟩ := held
    cases found

theorem FirstCome.insert {accounts : List Account} (come : FirstCome derive accounts u)
    (later : ∀ b ∈ accounts, Before b.idCom a.idCom) : FirstCome derive (accounts ++ [a]) (u.insert derive a) := by
  have fresh : u.get a.idCom = none := by
    cases found : u.get a.idCom with
    | none => rfl
    | some b =>
      obtain ⟨member, same⟩ := (come.get a.idCom b).mp found
      have order := later b member
      rw [same] at order
      exact absurd order order.asymm
  have holds : ∀ owner k, (u.insert derive a).Holds derive owner k ↔
      u.Holds derive owner k ∨ (owner = a.idCom ∧ a.Carries derive k) := by
    intro owner k
    unfold Holds
    rw [get_insert]
    by_cases same : owner = a.idCom
    · rw [same, if_pos rfl, fresh]
      simp
    · simp [same]
  have resolves : ∀ k owner, (u.insert derive a).resolve k = some owner ↔
      u.resolve k = some owner ∨ (u.resolve k = none ∧ owner = a.idCom ∧ a.Carries derive k) := by
    intro k owner
    have absent : ¬u.Holds derive a.idCom k := by
      rintro ⟨b, found, -⟩
      rw [fresh] at found
      cases found
    have other : u.resolve k ≠ some a.idCom := fun found => absent ((come.resolve k _).mp found).holds
    rw [resolve_insert]
    simp only [absent, other, false_or, or_false, not_false_eq_true, true_and]
    constructor
    · rintro (⟨same, carries, free⟩ | found)
      · exact .inr ⟨free, same, carries⟩
      · exact .inl found
    · rintro (found | ⟨free, same, carries⟩)
      · exact .inr found
      · exact .inl ⟨same, carries, free⟩
  refine ⟨?_, ?_, ?_⟩
  · intro id b
    rw [get_insert]
    by_cases same : id = a.idCom
    · rw [if_pos same, List.mem_append, List.mem_singleton]
      constructor
      · intro found
        cases found
        exact ⟨.inr rfl, same.symm⟩
      · rintro ⟨member | rfl, named⟩
        · have order := later b member
          rw [named, same] at order
          exact absurd order order.asymm
        · rfl
    · rw [if_neg same, come.get, List.mem_append, List.mem_singleton]
      constructor
      · rintro ⟨member, named⟩
        exact ⟨.inl member, named⟩
      · rintro ⟨member | rfl, named⟩
        · exact ⟨member, named⟩
        · exact absurd named.symm same
  · intro k owner
    have earlier : ∀ other, u.Holds derive other k → Before other a.idCom := by
      rintro other ⟨b, found, -⟩
      obtain ⟨member, rfl⟩ := (come.get other b).mp found
      exact later b member
    rw [resolves]
    constructor
    · rintro (found | ⟨free, rfl, carries⟩)
      · have first := (come.resolve k owner).mp found
        refine ⟨(holds owner k).mpr (.inl first.holds), fun other held => ?_⟩
        rcases (holds other k).mp held with old | ⟨rfl, -⟩
        · exact first.first other old
        · exact .inr (earlier owner first.holds)
      · refine ⟨(holds _ k).mpr (.inr ⟨rfl, carries⟩), fun other held => ?_⟩
        rcases (holds other k).mp held with old | ⟨rfl, -⟩
        · exact absurd free (come.bound k ⟨other, old⟩)
        · exact .inl rfl
    · rintro ⟨held, first⟩
      rcases (holds owner k).mp held with old | ⟨rfl, carries⟩
      · refine .inl ((come.resolve k owner).mpr ⟨old, fun other held => ?_⟩)
        exact first other ((holds other k).mpr (.inl held))
      refine .inr ⟨?_, rfl, carries⟩
      cases found : u.resolve k with
      | none => rfl
      | some other =>
        have old := ((come.resolve k other).mp found).holds
        have order := earlier other old
        rcases first other ((holds other k).mpr (.inl old)) with rfl | after
        · exact absurd order order.asymm
        · exact absurd after order.asymm
  · rintro k ⟨owner, held⟩ free
    rw [Option.eq_none_iff_forall_ne_some] at free
    have unbound : u.resolve k = none := by
      rw [Option.eq_none_iff_forall_ne_some]
      intro other found
      exact free other ((resolves k other).mpr (.inl found))
    rcases (holds owner k).mp held with old | ⟨rfl, carries⟩
    · exact come.bound k ⟨owner, old⟩ unbound
    · exact free _ ((resolves k _).mpr (.inr ⟨unbound, rfl, carries⟩))

theorem FirstCome.of_sorted {accounts : List Account} (sorted : accounts.Pairwise (fun b c => Before b.idCom c.idCom)) :
    FirstCome derive accounts (accounts.foldl (fun u a => u.insert derive a) new) := by
  induction accounts using List.reverseRecOn with
  | nil => exact .nil
  | append_singleton accounts a ih =>
    rw [List.pairwise_append] at sorted
    rw [List.foldl_concat]
    exact (ih sorted.1).insert (fun b member => sorted.2.2 b member a List.mem_cons_self)

theorem resolve_loaded {rows : TreeRows} (of : rows.Of codec t) (readable : Readable codec t) (keyed : Keyed t)
    (sorted : rows.accounts.Pairwise (fun r r' => compare r.1 r'.1 = .lt)) (k : Alias) (owner : AccountId) :
    (rows.loaded codec derive).resolve k = some owner ↔ FirstHolder derive t owner k := by
  have blind : (rows.loaded codec derive).resolve k = (rows.loadedAccounts codec derive).resolve k := by
    rw [loaded_same (fun u => u.resolve k) rows (fun _ _ => by cases k <;> rfl),
      loadedRecipients_same (fun u => u.resolve k) rows (fun _ _ _ => by cases k <;> rfl),
      loadedStubs_same (fun u => u.resolve k) rows (fun _ _ => by cases k <;> rfl),
      loadedStorage_same (fun u => u.resolve k) rows (fun _ _ => by cases k <;> rfl)]
  have order : (rows.accounts.map (accountOf codec)).Pairwise (fun b c => Before b.idCom c.idCom) := by
    rw [List.pairwise_map]
    refine sorted.imp_of_mem ?_
    intro r r' first second before
    obtain ⟨id, b, found, rfl⟩ := (of.accounts r).mp first
    obtain ⟨id', b', found', rfl⟩ := (of.accounts r').mp second
    rw [accountOf_row readable found, accountOf_row readable found', keyed id b found, keyed id' b' found']
    exact before
  have come : FirstCome derive (rows.accounts.map (accountOf codec)) (rows.loadedAccounts codec derive) := by
    have listed : FirstCome derive _ _ := FirstCome.of_sorted order
    rw [List.foldl_map] at listed
    exact listed
  have same : ∀ id, (rows.loadedAccounts codec derive).get id = t.get id :=
    fun id => Option.ext (get_loadedAccounts of readable keyed id)
  have holds : ∀ owner, (rows.loadedAccounts codec derive).Holds derive owner k ↔ t.Holds derive owner k := by
    intro owner
    unfold Holds
    rw [same]
  rw [blind, come.resolve]
  constructor
  · rintro ⟨held, first⟩
    exact ⟨(holds owner).mp held, fun other other_ => first other ((holds other).mpr other_)⟩
  · rintro ⟨held, first⟩
    exact ⟨(holds owner).mpr held, fun other other_ => first other ((holds other).mp other_)⟩

end Aliases

namespace ShardedState

variable {s v : ShardedState} {j k : Nat}

theorem treeAt_new (k : Nat) : (fromStateTree StateTree.new).treeAt k = StateTree.new := by
  unfold treeAt fromStateTree ShardedState.shard
  by_cases zero : k = 0
  · simp [zero]
  · simp [zero]

variable (s : ShardedState)

theorem treeAt_shardMut (k j : Nat) (f : StateTree → StateTree) :
    (s.shardMut k f).treeAt j = if j = k then f (s.treeAt k) else s.treeAt j := treeAt_setShard s k j _

theorem shardIndex_shardMut (k : Nat) (f : StateTree → StateTree) :
    (s.shardMut k f).shardIndex = s.shardIndex := shardIndex_setShard s k _

theorem isSome_setShard (k j : Nat) (t : StateTree) :
    ((s.setShard k t).shard j).isSome = (decide (j = k) || (s.shard j).isSome) := by
  rw [shard_setShard]
  by_cases same : j = k
  · simp [same]
  · simp [same]

end ShardedState

namespace StateDb

open ShardedState

variable {s v : ShardedState} {j k : Nat}

section Keys

theorem keyShard_shardBytes (bound : j < 2 ^ 64) (other : j ≠ 0) (key : List UInt8) : keyShard (shardBytes j ++ key) = j := by
  unfold keyShard shardBytes
  rw [if_neg other, List.take_left' (by simp), List.reverse_reverse, leNat_leBytes]
  exact Nat.mod_eq_of_lt bound

theorem take_of_keyShard {key : List UInt8} {n : Nat} (sized : key.length = n + 8) (own : keyShard key = k) :
    key.take 8 = (leBytes 8 k).reverse := by
  have length : (key.take 8).reverse.length = 8 := by
    rw [List.length_reverse, List.length_take, sized]
    omega
  have back := leBytes_leNat (key.take 8).reverse
  rw [length] at back
  unfold keyShard at own
  rw [own] at back
  rw [back, List.reverse_reverse]

theorem length_shardBytes (j : Nat) : (shardBytes j).length = if j = 0 then 0 else 8 := by
  unfold shardBytes
  split <;> simp

theorem length_shardKey (j : Nat) {n : Nat} {key : List UInt8} (sized : key.length = n) :
    (shardBytes j ++ key).length = (if j = 0 then 0 else 8) + n := by
  rw [List.length_append, length_shardBytes, sized]

theorem drop_shardKey (other : j ≠ 0) (key : List UInt8) : (shardBytes j ++ key).drop 8 = key := by
  apply List.drop_left'
  rw [length_shardBytes, if_neg other]

theorem shardBytes_injective (first : j < 2 ^ 64) (second : k < 2 ^ 64)
    {key key' : List UInt8} (sized : key.length = key'.length)
    (same : shardBytes j ++ key = shardBytes k ++ key') : j = k ∧ key = key' := by
  have lengths := congrArg List.length same
  rw [length_shardKey j sized, length_shardKey k rfl] at lengths
  by_cases zero : j = 0
  · by_cases zero' : k = 0
    · subst zero zero'
      exact ⟨rfl, same⟩
    · rw [if_pos zero, if_neg zero'] at lengths
      omega
  · by_cases zero' : k = 0
    · rw [if_neg zero, if_pos zero'] at lengths
      omega
    · have shards := congrArg keyShard same
      rw [keyShard_shardBytes first zero, keyShard_shardBytes second zero'] at shards
      subst shards
      exact ⟨rfl, List.append_cancel_left same⟩

/-- The row as the tree of shard `k` has it, if it is one of its rows; `n` is the length of the tree's own keys. -/
def shardRow (n k : Nat) (row : List UInt8 × List UInt8) : Option (List UInt8 × List UInt8) :=
  if k = 0 then if row.1.length = n then some row else none
  else if row.1.length = n + 8 ∧ keyShard row.1 = k then some (row.1.drop 8, row.2) else none

theorem shardRow_key (bound : j < 2 ^ 64) (n k : Nat) {key : List UInt8} (sized : key.length = n) (value : List UInt8) :
    shardRow n k (shardBytes j ++ key, value) = if k = j then some (key, value) else none := by
  unfold shardRow
  rw [length_shardKey j sized]
  by_cases own : j = 0
  · subst own
    by_cases zero : k = 0
    · simp [zero, shardBytes_zero]
    · simp [zero]
  · by_cases zero : k = 0
    · subst zero
      have differ : ¬(0 : Nat) = j := fun same => own same.symm
      simp [own, differ]
    · rw [if_neg zero, if_neg own, keyShard_shardBytes bound own, drop_shardKey own]
      by_cases same : k = j
      · rw [if_pos same, if_pos ⟨by omega, same.symm⟩]
      · rw [if_neg same, if_neg (fun both => same both.2.symm)]

end Keys

section ShardRows

theorem mem_iterShards {entry : Nat × StateTree} : entry ∈ s.iterShards ↔ s.shard entry.1 = some entry.2 := by
  obtain ⟨k, t⟩ := entry
  unfold iterShards ShardedState.shard
  by_cases zero : k = 0
  · subst zero
    simp [eq_comm]
  · simp [zero]

def ShardIdsFit (s : ShardedState) : Prop := ∀ k, (s.shard k).isSome = true → k < 2 ^ 64

variable {κ β : Type} {n : Nat} {rel : StateTree → κ → β → Prop} {key : κ → List UInt8} {value : β → List UInt8}
  {rows : Nat → StateTree → List (List UInt8 × List UInt8)} {x : κ} {b : β}

section

variable (column : Column n rel key value rows)

include column

theorem Column.held (related : rel (s.treeAt k) x b) : s.shard k = some (s.treeAt k) := by
  cases there : s.shard k with
  | none =>
    unfold treeAt at related
    rw [there] at related
    exact absurd related (column.empty x b)
  | some tree => rw [treeAt_of_shard there]

theorem Column.isSome (related : rel (s.treeAt k) x b) : (s.shard k).isSome = true :=
  Option.isSome_of_eq_some (column.held related)

theorem Column.fits (fit : ShardIdsFit s) (related : rel (s.treeAt k) x b) : k < 2 ^ 64 :=
  fit k (column.isSome related)

theorem Column.shards (s : ShardedState) :
    Codes (fun (at_ : Nat × κ) b => rel (s.treeAt at_.1) at_.2 b) (fun at_ => shardBytes at_.1 ++ key at_.2) value
      (s.iterShards.flatMap (fun entry => rows entry.1 entry.2)) := by
  intro row
  rw [List.mem_flatMap]
  constructor
  · rintro ⟨⟨k, t⟩, there, inside⟩
    obtain rfl : s.treeAt k = t := treeAt_of_shard (mem_iterShards.mp there)
    obtain ⟨x, b, related, rfl⟩ := (column.codes k _ row).mp inside
    exact ⟨(k, x), b, related, rfl⟩
  · rintro ⟨⟨k, x⟩, b, related, rfl⟩
    exact ⟨(k, s.treeAt k), mem_iterShards.mpr (column.held related), (column.codes k _ _).mpr ⟨x, b, related, rfl⟩⟩

theorem Column.written (fit : ShardIdsFit s) {row : List UInt8 × List UInt8} :
    row ∈ ((clear ∅).put (s.iterShards.flatMap (fun entry => rows entry.1 entry.2))).toList ↔
      ∃ k x b, rel (s.treeAt k) x b ∧ row = (shardBytes k ++ key x, value b) := by
  have functional := (column.shards s).functional ?_
  · rw [(column.shards s).put functional lookup_clear_empty row, Prod.exists]
  · rintro ⟨k, x⟩ b ⟨k', x'⟩ b' related related' same
    obtain ⟨shards, keys⟩ := shardBytes_injective (column.fits fit related) (column.fits fit related')
      ((column.sized x).trans (column.sized x').symm) same
    have ids := column.injective x x' keys
    subst shards ids
    exact column.single _ x b b' related related'

theorem Column.shard (fit : ShardIdsFit s) (k : Nat) :
    Codes (rel (s.treeAt k)) key value
      (((clear ∅).put (s.iterShards.flatMap (fun entry => rows entry.1 entry.2))).toList.filterMap (shardRow n k)) := by
  intro row
  rw [List.mem_filterMap]
  constructor
  · rintro ⟨r, member, picked⟩
    obtain ⟨j, x, b, related, rfl⟩ := (column.written fit).mp member
    rw [shardRow_key (column.fits fit related) n k (column.sized x)] at picked
    split at picked
    · rename_i same
      subst same
      cases picked
      exact ⟨x, b, related, rfl⟩
    · cases picked
  · rintro ⟨x, b, related, rfl⟩
    refine ⟨_, (column.written fit).mpr ⟨k, x, b, related, rfl⟩, ?_⟩
    rw [shardRow_key (column.fits fit related) n k (column.sized x), if_pos rfl]

end

end ShardRows

section Written

abbrev written (codec : RowCodec) (sha : List UInt8 → Hash) (s : ShardedState) (identity : ChainIdentityMetadata) : StateDb :=
  StateDb.new.persistShardedStateWithIdentity codec sha s identity

variable {identity : ChainIdentityMetadata}

def shardRows (db : StateDb) (k : Nat) : TreeRows where
  accounts := db.accounts.toList.filterMap (shardRow 32 k)
  contractStorage := db.contractStorage.toList.filterMap (shardRow 64 k)
  accountStubs := db.accountStubs.toList.filterMap (shardRow 32 k)
  hfiRecipients := []
  zkReplayRegistry := []

def bare (t : StateTree) : StateTree := { t with hfiRecipients := ∅, zkReplayRegistry := ∅ }

theorem firstHolder_bare {k : Alias} : FirstHolder derive (bare t) owner k ↔ FirstHolder derive t owner k :=
  ⟨fun first => ⟨first.holds, first.first⟩, fun first => ⟨first.holds, first.first⟩⟩

theorem shardRows_of (fit : ShardIdsFit s) (k : Nat) :
    ((written codec sha s identity).shardRows k).Of codec (bare (s.treeAt k)) where
  accounts := (accountColumn codec).shard fit k
  contractStorage row := by
    have codes := storageColumn.shard fit k row
    simp only [Prod.exists, and_assoc] at codes
    exact codes
  accountStubs := (stubColumn codec).shard fit k
  hfiRecipients row := by simp [shardRows, bare]
  zkReplayRegistry row := by simp [shardRows, bare]

theorem shardRows_sorted (db : StateDb) (k : Nat) :
    (db.shardRows k).accounts.Pairwise (fun r r' => compare r.1 r'.1 = .lt) := by
  have walked : db.accounts.toList.Pairwise (fun r r' => compare r.1 r'.1 = .lt) := Std.TreeMap.ordered_keys_toList
  refine List.Pairwise.filterMap _ ?_ walked
  intro r r' before row picked row' picked'
  unfold shardRow at picked picked'
  by_cases zero : k = 0
  · rw [if_pos zero] at picked picked'
    split at picked <;> cases picked
    split at picked' <;> cases picked'
    exact before
  · rw [if_neg zero] at picked picked'
    split at picked <;> cases picked
    rename_i own
    split at picked' <;> cases picked'
    rename_i own'
    have start := take_of_keyShard own.1 own.2
    have start' := take_of_keyShard own'.1 own'.2
    rw [← List.take_append_drop 8 r.1, ← List.take_append_drop 8 r'.1, start, start', compare_append_left] at before
    exact before

end Written

section Steps

def vacate (derive : Derivations) (v : ShardedState) (j : Nat) (id : AccountId) : ShardedState :=
  match v.shardIndex id with
  | some old => if old ≠ j then v.removeFrom derive old id else v
  | none => v

theorem insertIntoShard_eq (v : ShardedState) (j : Nat) (a : Account) :
    v.insertIntoShard derive j a = (vacate derive v j a.idCom).place derive j a := rfl

theorem vacate_cases (derive : Derivations) (v : ShardedState) (j : Nat) (id : AccountId) :
    (∃ old, v.shardIndex id = some old ∧ old ≠ j ∧ vacate derive v j id = v.removeFrom derive old id) ∨
      ((v.shardIndex id = none ∨ v.shardIndex id = some j) ∧ vacate derive v j id = v) := by
  unfold vacate
  cases index : v.shardIndex id with
  | none => exact .inr ⟨.inl rfl, rfl⟩
  | some old =>
    by_cases same : old = j
    · exact .inr ⟨.inr (congrArg some same), if_neg (fun differ => differ same)⟩
    · exact .inl ⟨old, rfl, same, if_pos same⟩

theorem isSome_place (v : ShardedState) (j k : Nat) (a : Account) :
    ((v.place derive j a).shard k).isSome = (decide (k = j) || (v.shard k).isSome) := isSome_setShard v j k _

theorem isSome_removeFrom (v : ShardedState) (j k : Nat) (id : AccountId) :
    ((v.removeFrom derive j id).shard k).isSome = (v.shard k).isSome := by
  unfold removeFrom
  cases there : v.shard j with
  | none => rfl
  | some tree =>
    rw [isSome_setShard]
    by_cases same : k = j
    · simp [same, there]
    · simp [same]

/-- What holds while accounts are read: they are under their own ids, and one that is in a shard other than the default
one is indexed there. -/
structure Indexing (v : ShardedState) : Prop where
  keyed : ∀ k, Keyed (v.treeAt k)
  indexed : ∀ id k, k ≠ 0 → v.Hot id k → v.shardIndex id = some k

theorem Indexing.congr (indexing : Indexing v)
    {v' : ShardedState} (accounts : ∀ k, (v'.treeAt k).accounts = (v.treeAt k).accounts)
    (index : v'.shardIndex = v.shardIndex) : Indexing v' where
  keyed k := (indexing.keyed k).of_accounts (accounts k)
  indexed id k other hot := by
    rw [index]
    apply indexing.indexed id k other
    rw [hot_iff_treeAt] at hot ⊢
    unfold StateTree.contains StateTree.get at hot ⊢
    rw [← accounts k]
    exact hot

theorem Indexing.insertDefault (indexing : Indexing v) (a : Account) :
    Indexing (v.shardMut 0 (fun t => t.insert derive a)) where
  keyed k := by
    rw [treeAt_shardMut]
    split
    · exact (indexing.keyed 0).insert derive a
    · exact indexing.keyed k
  indexed id k other hot := by
    apply indexing.indexed id k other
    rw [hot_iff_treeAt, treeAt_shardMut, if_neg other] at hot
    exact hot_iff_treeAt.mpr hot

theorem Indexing.insertIntoShard (indexing : Indexing v) (j : Nat) (a : Account) :
    Indexing (v.insertIntoShard derive j a) := by
  rw [insertIntoShard_eq]
  have cleared : (∀ k, Keyed ((vacate derive v j a.idCom).treeAt k)) ∧
      (∀ id k, k ≠ 0 → (vacate derive v j a.idCom).Hot id k → v.shardIndex id = some k ∧ (id = a.idCom → k = j)) ∧
      (vacate derive v j a.idCom).shardIndex = v.shardIndex := by
    rcases vacate_cases derive v j a.idCom with ⟨old, index, differ, moved⟩ | ⟨index, stayed⟩
    · rw [moved]
      refine ⟨fun k => ?_, fun id k other hot => ?_, shardIndex_removeFrom v old a.idCom⟩
      · rw [treeAt_removeFrom]
        split
        · exact keyed_remove (indexing.keyed old) derive a.idCom
        · exact indexing.keyed k
      · obtain ⟨held, kept⟩ := hot_removeFrom.mp hot
        have found := indexing.indexed id k other held
        refine ⟨found, fun same => ?_⟩
        rw [same, index] at found
        cases found
        exact absurd ⟨same, rfl⟩ kept
    · rw [stayed]
      refine ⟨indexing.keyed, fun id k other hot => ?_, rfl⟩
      have found := indexing.indexed id k other hot
      refine ⟨found, fun same => ?_⟩
      rw [same] at found
      rcases index with none_ | own
      · rw [none_] at found
        cases found
      · rw [own] at found
        exact (Option.some.inj found).symm
  obtain ⟨keyed, indexed, index⟩ := cleared
  have lands := place_lands derive (vacate derive v j a.idCom) j a
  refine ⟨fun k => ?_, fun id k other hot => ?_⟩
  · rw [treeAt_place]
    split
    · exact (keyed j).insert derive a
    · exact keyed k
  · rw [lands.index, index]
    rcases (lands.hot id k).mp hot with ⟨rfl, rfl⟩ | held
    · rw [if_pos rfl]
    · have found := indexed id k other held
      by_cases same : id = a.idCom
      · rw [if_pos same, found.2 same]
      · rw [if_neg same, found.1]

theorem loadShardAccount_key (bound : j < 2 ^ 64) (v : ShardedState) (id : AccountId) (a : Account) :
    loadShardAccount derive v (shardBytes j ++ hashBytes id.bytes) a =
      if j = 0 then v.shardMut 0 (fun t => t.insert derive a) else v.insertIntoShard derive j a := by
  unfold loadShardAccount
  rw [length_shardKey j (length_hashBytes id.bytes)]
  by_cases zero : j = 0
  · simp [zero]
  · simp [zero, keyShard_shardBytes bound zero]

theorem loadShardStub_key (bound : j < 2 ^ 64) (v : ShardedState) (id : AccountId) (stub : AccountStub) :
    loadShardStub v (shardBytes j ++ hashBytes id.bytes) stub = v.shardMut j (fun t => t.insertStub stub) := by
  unfold loadShardStub
  rw [length_shardKey j (length_hashBytes id.bytes)]
  by_cases zero : j = 0
  · simp [zero]
  · simp [zero, keyShard_shardBytes bound zero]

theorem loadShardStorage_key (bound : j < 2 ^ 64) (v : ShardedState) (id : AccountId) (slot value : Hash) :
    loadShardStorage v (shardBytes j ++ (hashBytes id.bytes ++ hashBytes slot), hashBytes value) =
      v.shardMut j (fun t => loadStorageRow t (hashBytes id.bytes ++ hashBytes slot, hashBytes value)) := by
  have sized : (hashBytes id.bytes ++ hashBytes slot).length = 64 ∧ (hashBytes value).length = 32 := by simp
  have read : (fun t => loadStorageRow t (hashBytes id.bytes ++ hashBytes slot, hashBytes value)) =
      fun t : StateTree => t.setStorage ⟨beHash ((hashBytes id.bytes ++ hashBytes slot).take 32)⟩
        (beHash ((hashBytes id.bytes ++ hashBytes slot).drop 32)) (beHash (hashBytes value)) := by
    funext t
    exact if_pos sized
  rw [read]
  unfold loadShardStorage
  rw [length_shardKey j sized.1, length_hashBytes]
  by_cases zero : j = 0
  · subst zero
    rfl
  · rw [if_neg zero, if_neg (by omega), if_pos (by omega), keyShard_shardBytes bound zero, drop_shardKey zero]

end Steps

section Stages

variable (codec derive) (ids : List Nat)

def ensuredShards : ShardedState :=
  (ids.filter (· ≠ 0)).foldl (fun v k => v.shardMut k (fun t => t)) (.fromStateTree .new)

variable (db : StateDb)

def withAccounts (v : ShardedState) : ShardedState :=
  db.accounts.toList.foldl (fun v row => loadShardAccount derive v row.1 (accountOf codec row)) v

def withStorage (v : ShardedState) : ShardedState := db.contractStorage.toList.foldl loadShardStorage v

def withStubs (v : ShardedState) : ShardedState :=
  db.accountStubs.toList.foldl (fun v row => loadShardStub v row.1 (stubOf codec row)) v

def loadedShards (ids : List Nat) : ShardedState :=
  db.withStubs codec (db.withStorage (db.withAccounts codec derive (ensuredShards ids)))

variable {codec derive}

structure Blank (ids : List Nat) (v : ShardedState) : Prop where
  trees : ∀ k, v.treeAt k = StateTree.new
  index : ∀ id, v.shardIndex id = none
  shards : ∀ k, (v.shard k).isSome = true ↔ k = 0 ∨ k ∈ ids

theorem ensuredShards_blank : Blank ids (ensuredShards ids) := by
  unfold ensuredShards
  induction ids using List.reverseRecOn with
  | nil =>
    refine ⟨treeAt_new, fun id => rfl, fun k => ?_⟩
    by_cases zero : k = 0 <;> simp [fromStateTree, ShardedState.shard, zero]
  | append_singleton ids j ih =>
    by_cases zero : j = 0
    · have kept : (ids ++ [j]).filter (· ≠ 0) = ids.filter (· ≠ 0) := by simp [zero]
      rw [kept]
      refine ⟨ih.trees, ih.index, fun k => ?_⟩
      rw [ih.shards k, List.mem_append, List.mem_singleton]
      grind
    · have kept : (ids ++ [j]).filter (· ≠ 0) = ids.filter (· ≠ 0) ++ [j] := by simp [zero]
      rw [kept, List.foldl_concat]
      refine ⟨fun k => ?_, fun id => ?_, fun k => ?_⟩
      · rw [treeAt_shardMut, ih.trees, ih.trees, ite_self]
      · rw [shardIndex_shardMut]
        exact ih.index id
      · rw [shardMut, isSome_setShard, Bool.or_eq_true, ih.shards k, decide_eq_true_eq, List.mem_append, List.mem_singleton]
        grind

def SameShards (s v : ShardedState) : Prop := ∀ k, (v.shard k).isSome = (s.shard k).isSome

theorem SameShards.setShard (same : SameShards s v) (there : (s.shard j).isSome = true) (t : StateTree) :
    SameShards s (v.setShard j t) := by
  intro k
  rw [isSome_setShard, same k]
  by_cases own : k = j
  · simp [own, there]
  · simp [own]

theorem SameShards.insertIntoShard (same : SameShards s v) (there : (s.shard j).isSome = true) (a : Account) :
    SameShards s (v.insertIntoShard derive j a) := by
  have cleared : SameShards s (vacate derive v j a.idCom) := by
    rcases vacate_cases derive v j a.idCom with ⟨old, -, -, moved⟩ | ⟨-, stayed⟩
    · rw [moved]
      intro k
      rw [isSome_removeFrom, same k]
    · rw [stayed]
      exact same
  exact cleared.setShard there _

def Alone (s : ShardedState) : Prop := ∀ id j k, j ≠ 0 → k ≠ 0 → s.Hot id j → s.Hot id k → j = k

def IndexedFrom (s v : ShardedState) : Prop := ∀ id j, v.shardIndex id = some j → j ≠ 0 ∧ s.Hot id j

theorem loadShardAccount_step (bound : j < 2 ^ 64) (keyed : ∀ k, Keyed (s.treeAt k)) (alone : Alone s)
    (indexed : IndexedFrom s v) (found : (s.treeAt j).get id = some a) :
    IndexedFrom s (loadShardAccount derive v (shardBytes j ++ hashBytes id.bytes) a) ∧
      ∀ k, (loadShardAccount derive v (shardBytes j ++ hashBytes id.bytes) a).treeAt k =
        if k = j then (v.treeAt k).insert derive a else v.treeAt k := by
  have own : a.idCom = id := keyed j id a found
  have here : s.Hot id j := hot_iff_treeAt.mpr (contains_of_get found)
  rw [loadShardAccount_key bound]
  split
  · rename_i zero
    subst zero
    refine ⟨?_, fun k => ?_⟩
    · intro other k index
      exact indexed other k index
    · rw [treeAt_shardMut]
      split
      · rename_i same
        rw [same]
      · rfl
  · rename_i other
    have stayed : vacate derive v j a.idCom = v := by
      rcases vacate_cases derive v j a.idCom with ⟨old, index, differ, -⟩ | ⟨-, stayed⟩
      · rw [own] at index
        obtain ⟨elsewhere, there⟩ := indexed id old index
        exact absurd (alone id old j elsewhere other there here) differ
      · exact stayed
    rw [insertIntoShard_eq, stayed]
    have lands := place_lands derive v j a
    refine ⟨?_, fun k => ?_⟩
    · intro id' k index
      rw [lands.index, own] at index
      split at index
      · rename_i same
        cases index
        exact ⟨other, same ▸ here⟩
      · exact indexed id' k index
    · rw [treeAt_place]
      split
      · rename_i same
        rw [same]
      · rfl

/-- The state has the shards and the index it had; `t` is now the tree of shard `k`. -/
structure Projected (s v v' : ShardedState) (k : Nat) (t : StateTree) : Prop where
  shards : SameShards s v'
  index : v'.shardIndex = v.shardIndex
  tree : v'.treeAt k = t

theorem shardMut_project {step : ShardedState → List UInt8 × List UInt8 → ShardedState}
    (write : StateTree → List UInt8 × List UInt8 → StateTree) {rows : List (List UInt8 × List UInt8)} {n : Nat}
    (writes : ∀ row ∈ rows, ∃ j key value, j < 2 ^ 64 ∧ (s.shard j).isSome = true ∧ key.length = n ∧
      row = (shardBytes j ++ key, value) ∧ ∀ v, step v row = v.shardMut j (fun t => write t (key, value)))
    (same : SameShards s v) (k : Nat) :
    Projected s v (rows.foldl step v) k ((rows.filterMap (shardRow n k)).foldl write (v.treeAt k)) := by
  refine (foldl_project (fun v => v.treeAt k) write (I := fun w => SameShards s w ∧ w.shardIndex = v.shardIndex) ?_
    ⟨same, rfl⟩).elim fun kept tree => ⟨kept.1, kept.2, tree⟩
  rintro w row member ⟨shards, index⟩
  obtain ⟨j, key, value, bound, there, sized, rfl, written⟩ := writes row member
  rw [written w, shardRow_key bound n k sized, treeAt_shardMut]
  refine ⟨⟨shards.setShard there _, (shardIndex_shardMut w j _).trans index⟩, ?_⟩
  split
  · rename_i same
    rw [same, Option.elim_some]
  · rfl

theorem ensuredShards_same (s : ShardedState) : SameShards s (ensuredShards (s.iterShards.map Prod.fst)) := by
  intro k
  have there := (ensuredShards_blank (s.iterShards.map Prod.fst)).shards k
  rw [Bool.eq_iff_iff, there, List.mem_map]
  constructor
  · rintro (rfl | ⟨entry, member, rfl⟩)
    · rfl
    · rw [mem_iterShards.mp member]
      rfl
  · intro here
    obtain ⟨tree, found⟩ := Option.isSome_iff_exists.mp here
    exact .inr ⟨(k, tree), mem_iterShards.mpr found, rfl⟩

theorem ensuredShards_indexing : Indexing (ensuredShards ids) := by
  have trees := (ensuredShards_blank ids).trees
  refine ⟨fun k => ?_, fun id k _ hot => ?_⟩
  · rw [trees k]
    intro id a found
    cases found
  · rw [hot_iff_treeAt, trees k] at hot
    cases hot

variable (codec derive sha)

abbrev restored (s : ShardedState) (identity : ChainIdentityMetadata) : ShardedState :=
  (written codec sha s identity).loadedShards codec derive (s.iterShards.map Prod.fst)

variable (identity : ChainIdentityMetadata) (fit : ShardIdsFit s)

include fit

variable {codec derive sha identity} in
theorem loadShardedState_eq (readable : ∀ k, Readable codec (s.treeAt k))
    (ids : codec.readShardIds (codec.shardIds (s.iterShards.map Prod.fst)) = .ok (s.iterShards.map Prod.fst)) :
    (written codec sha s identity).loadShardedState codec derive =
      .ok (restored codec derive sha s identity) := by
  have listed : (written codec sha s identity).stateMeta[metaShardIds]? =
      some (codec.shardIds (s.iterShards.map Prod.fst)) := by
    have root : ¬metaShardIds = metaStateRoot := by decide
    have hash : ¬metaShardIds = metaGenesisHash := by decide
    have time : ¬metaShardIds = metaGenesisTimeMs := by decide
    have config : ¬metaShardIds = metaGenesisConfigHash := by decide
    unfold written persistShardedStateWithIdentity identityRows
    cases identity.genesisConfigHash with
    | none =>
      simp only [put, List.cons_append, List.nil_append, List.foldl_cons, List.foldl_nil]
      rw [lookup_insert, if_neg time, lookup_insert, if_neg hash, lookup_insert, if_neg root, lookup_insert, if_pos rfl]
    | some _ =>
      simp only [put, List.cons_append, List.nil_append, List.foldl_cons, List.foldl_nil]
      rw [lookup_insert, if_neg config, lookup_insert, if_neg time, lookup_insert, if_neg hash, lookup_insert, if_neg root,
        lookup_insert, if_pos rfl]
  have accounts : ∀ row ∈ (written codec sha s identity).accounts.toList,
      codec.readAccount row.2 = .ok (accountOf codec row) := by
    intro row member
    obtain ⟨k, id, a, found, rfl⟩ := ((accountColumn codec).written fit).mp member
    rw [accountOf_row (readable k) found]
    exact (readable k).account id a found
  have stubs : ∀ row ∈ (written codec sha s identity).accountStubs.toList,
      codec.readStub row.2 = .ok (stubOf codec row) := by
    intro row member
    obtain ⟨k, id, stub, found, rfl⟩ := ((stubColumn codec).written fit).mp member
    rw [stubOf_row (readable k) found]
    exact (readable k).stub id stub found
  have first := foldlM_ok (fun v row => loadShardAccount derive v row.1) accounts (ensuredShards (s.iterShards.map Prod.fst))
  have last := foldlM_ok (fun v row => loadShardStub v row.1) stubs
    ((written codec sha s identity).withStorage
      ((written codec sha s identity).withAccounts codec derive
        (ensuredShards (s.iterShards.map Prod.fst))))
  unfold loadShardedState
  rw [listed]
  dsimp only
  rw [ids]
  simp only [bind, Except.bind]
  unfold loadMultiShard
  unfold ensuredShards at first
  dsimp only
  rw [first]
  exact last

theorem withAccounts_indexing (indexing : Indexing v) (same : SameShards s v) :
    Indexing ((written codec sha s identity).withAccounts codec derive v) ∧
      SameShards s ((written codec sha s identity).withAccounts codec derive v) := by
  refine List.foldlRecOn (motive := fun v => Indexing v ∧ SameShards s v) _ _ ⟨indexing, same⟩ ?_
  intro v held row member
  obtain ⟨j, id, a, found, rfl⟩ := ((accountColumn codec).written fit).mp member
  rw [loadShardAccount_key ((accountColumn codec).fits fit found)]
  split
  · rename_i zero
    exact ⟨held.1.insertDefault _, held.2.setShard (zero ▸ (accountColumn codec).isSome found) _⟩
  · exact ⟨held.1.insertIntoShard j _, held.2.insertIntoShard ((accountColumn codec).isSome found) _⟩

theorem withAccounts_project (readable : ∀ k, Readable codec (s.treeAt k))
    (keyed : ∀ k, Keyed (s.treeAt k)) (alone : Alone s) (indexed : IndexedFrom s v) (k : Nat) :
    IndexedFrom s ((written codec sha s identity).withAccounts codec derive v) ∧
      ((written codec sha s identity).withAccounts codec derive v).treeAt k =
        ((written codec sha s identity).shardRows k).accounts.foldl
          (fun t row => t.insert derive (accountOf codec row)) (v.treeAt k) := by
  refine foldl_project (fun v => v.treeAt k) (fun t row => t.insert derive (accountOf codec row)) (I := IndexedFrom s)
    ?_ indexed
  intro v row member indexed
  obtain ⟨j, id, a, found, rfl⟩ := ((accountColumn codec).written fit).mp member
  have bound := (accountColumn codec).fits fit found
  obtain ⟨kept, trees⟩ := loadShardAccount_step bound keyed alone indexed found
  rw [accountOf_row (readable j) found, shardRow_key bound 32 k (by simp)]
  refine ⟨kept, (trees k).trans ?_⟩
  split
  · rw [Option.elim_some, accountOf_row (readable j) found]
  · rfl

theorem withStorage_project (same : SameShards s v) (k : Nat) :
    Projected s v ((written codec sha s identity).withStorage v) k
      (((written codec sha s identity).shardRows k).contractStorage.foldl loadStorageRow (v.treeAt k)) := by
  apply shardMut_project loadStorageRow ?_ same
  intro row member
  obtain ⟨j, ⟨id, slot⟩, value, held, rfl⟩ := (storageColumn.written fit).mp member
  have bound := storageColumn.fits fit held
  exact ⟨j, _, _, bound, storageColumn.isSome held, by simp, rfl, fun v => loadShardStorage_key bound v id slot value⟩

theorem withStubs_project (same : SameShards s v) (k : Nat) :
    Projected s v ((written codec sha s identity).withStubs codec v) k
      (((written codec sha s identity).shardRows k).accountStubs.foldl (fun t row => t.insertStub (stubOf codec row))
        (v.treeAt k)) := by
  apply shardMut_project (fun t row => t.insertStub (stubOf codec row)) ?_ same
  intro row member
  obtain ⟨j, id, stub, found, rfl⟩ := ((stubColumn codec).written fit).mp member
  have bound := (stubColumn codec).fits fit found
  exact ⟨j, _, _, bound, (stubColumn codec).isSome found, by simp, rfl, fun v => loadShardStub_key bound v id _⟩

theorem loadedShards_indexing :
    Indexing (restored codec derive sha s identity) ∧
    SameShards s (restored codec derive sha s identity) := by
  unfold restored loadedShards
  obtain ⟨indexing, same⟩ := withAccounts_indexing codec derive sha identity fit
    (ensuredShards_indexing (s.iterShards.map Prod.fst)) (ensuredShards_same s)
  have storage := withStorage_project codec sha identity fit same
  have stubs := withStubs_project codec sha identity fit (storage 0).shards
  refine ⟨indexing.congr (fun k => ?_) ?_, (stubs 0).shards⟩
  · have storageSame : ∀ t row, (loadStorageRow t row).accounts = t.accounts := by
      intro t row
      unfold loadStorageRow
      split <;> rfl
    have stubSame : ∀ (t : StateTree) row, (t.insertStub (stubOf codec row)).accounts = t.accounts := fun _ _ => rfl
    rw [(stubs k).tree, foldl_same stubSame, (storage k).tree, foldl_same storageSame]
  · rw [(stubs 0).index, (storage 0).index]

theorem loadedShards_treeAt (readable : ∀ k, Readable codec (s.treeAt k))
    (keyed : ∀ k, Keyed (s.treeAt k)) (alone : Alone s) :
    IndexedFrom s (restored codec derive sha s identity) ∧
    ∀ k, (restored codec derive sha s identity).treeAt k =
        ((written codec sha s identity).shardRows k).loaded codec derive := by
  have start : IndexedFrom s (ensuredShards (s.iterShards.map Prod.fst)) := by
    intro id j index
    rw [(ensuredShards_blank (s.iterShards.map Prod.fst)).index id] at index
    cases index
  have accounts := withAccounts_project codec derive sha identity fit readable keyed alone start
  have same := (withAccounts_indexing codec derive sha identity fit
    (ensuredShards_indexing (s.iterShards.map Prod.fst)) (ensuredShards_same s)).2
  unfold restored loadedShards
  have storage := withStorage_project codec sha identity fit same
  have stubs := withStubs_project codec sha identity fit (storage 0).shards
  refine ⟨?_, fun k => ?_⟩
  · intro id j index
    rw [(stubs 0).index, (storage 0).index] at index
    exact (accounts 0).1 id j index
  · rw [(stubs k).tree, (storage k).tree, (accounts k).2, (ensuredShards_blank (s.iterShards.map Prod.fst)).trees k]
    rfl

end Stages

end StateDb

namespace ShardedState

open StateDb

variable {s v : ShardedState} {j k : Nat}

/-- What is meant to outlast a restart: the contents of the shards, their address indexes, the index of the recipients, and
the shard an account is sent to. -/
structure SameView (s v : ShardedState) : Prop where
  shards : SameShards s v
  contents : ∀ k, SameContents (s.treeAt k) (v.treeAt k)
  aliases : ∀ k (address : Alias), (v.treeAt k).resolve address = (s.treeAt k).resolve address
  idcoms : ∀ k (idcom : Hash), (v.treeAt k).hfiIdcomIndex[idcom]? = (s.treeAt k).hfiIdcomIndex[idcom]?
  routes : ∀ id, v.targetShard id = s.targetShard id

theorem computeRoot_eq_roots (sha : List UInt8 → Hash) (s : ShardedState) : s.computeRoot sha =
    if (s.iterShards.map (fun entry => (entry.1, entry.2.computeRoot sha))).length = 1 then s.defaultShard.computeRoot sha
    else sha (asciiBytes "ACE-SHARDED-STATE-V1" ++ (s.iterShards.map (fun entry => (entry.1, entry.2.computeRoot sha))).flatMap
      (fun entry => leBytes 8 entry.1 ++ hashBytes entry.2)) := by
  unfold computeRoot
  rw [List.length_map, List.flatMap_map]

theorem SameView.computeRoot_eq (same : SameView s v) (sha : List UInt8 → Hash) : v.computeRoot sha = s.computeRoot sha := by
  have roots : ∀ k, (v.shard k).map (fun t => t.computeRoot sha) = (s.shard k).map (fun t => t.computeRoot sha) := by
    intro k
    have shards := same.shards k
    have root := (same.contents k).computeRoot_eq sha
    cases there : s.shard k with
    | none =>
      rw [there] at shards
      have gone : v.shard k = none := by simpa using shards
      rw [gone]
    | some t =>
      rw [there] at shards
      obtain ⟨t', there'⟩ := Option.isSome_iff_exists.mp shards
      rw [treeAt_of_shard there, treeAt_of_shard there'] at root
      rw [there', Option.map_some, Option.map_some, root]
  have first : v.defaultShard.computeRoot sha = s.defaultShard.computeRoot sha := Option.some.inj (roots 0)
  have listed : ∀ w : ShardedState, (w.otherShards.toList.filter (fun entry => entry.1 ≠ 0)).map
      (fun entry => (entry.1, entry.2.computeRoot sha)) =
        ((w.otherShards.filter (fun k _ => decide (k ≠ 0))).map (fun _ t => t.computeRoot sha)).toList := by
    intro w
    rw [Std.TreeMap.toList_map, Std.TreeMap.toList_filter]
  have others : ((v.otherShards.filter (fun k _ => decide (k ≠ 0))).map (fun _ t => t.computeRoot sha)).toList =
      ((s.otherShards.filter (fun k _ => decide (k ≠ 0))).map (fun _ t => t.computeRoot sha)).toList := by
    apply toList_eq_of_lookup
    intro k
    rw [Std.TreeMap.getElem?_map, Std.TreeMap.getElem?_map, Std.TreeMap.getElem?_filter', Std.TreeMap.getElem?_filter']
    have root := roots k
    unfold ShardedState.shard at root
    by_cases zero : k = 0
    · subst zero
      cases v.otherShards[0]? <;> cases s.otherShards[0]? <;> rfl
    rw [if_neg zero, if_neg zero] at root
    have kept : ∀ found : Option StateTree, Option.filter (fun _ => decide (k ≠ 0)) found = found := by
      intro found
      cases found with
      | none => rfl
      | some t => simp [zero]
    rw [kept, kept]
    exact root
  have same : v.iterShards.map (fun entry => (entry.1, entry.2.computeRoot sha)) =
      s.iterShards.map (fun entry => (entry.1, entry.2.computeRoot sha)) := by
    unfold iterShards
    rw [List.map_cons, List.map_cons, listed v, listed s, others]
    rw [first]
  rw [computeRoot_eq_roots, computeRoot_eq_roots, same, first]

/-- Transfers are answered alike, and the same replay commitments are taken. -/
theorem SameView.decides_alike (same : SameView s v) (derive : Derivations) (sender receiver : AccountId) (amount : Nat)
    (expectedNonce : Option Nat) (incrementNonce : Bool) (rpCom idcom : Hash) :
    (Engine.transferWithNoncePolicy derive (v.treeAt k) sender receiver amount expectedNonce incrementNonce).1 =
        (Engine.transferWithNoncePolicy derive (s.treeAt k) sender receiver amount expectedNonce incrementNonce).1 ∧
      ((v.treeAt k).zkReplayConsume rpCom idcom).isSome = ((s.treeAt k).zkReplayConsume rpCom idcom).isSome := by
  have contents := same.contents k
  constructor
  · refine Engine.transferWithNoncePolicy_congr contents.accounts (fun id => ?_) _ _ _
    unfold isStubbed
    rw [Std.TreeMap.contains_eq_isSome_getElem?, contents.stubs, ← Std.TreeMap.contains_eq_isSome_getElem?]
  · unfold zkReplayConsume
    rw [Std.TreeMap.contains_eq_isSome_getElem?, contents.replay, ← Std.TreeMap.contains_eq_isSome_getElem?]
    split <;> rfl

structure RoutedByRows (s : ShardedState) : Prop where
  hot : ∀ id k, k ≠ 0 → s.Hot id k → s.targetShard id = k
  other : ∀ id, (∀ k, k ≠ 0 → ¬s.Hot id k) → s.targetShard id = deterministicShard id

/-- What the shards must be for their rows to hold all of them. There are no rows for recipients, intents and replay
commitments of a shard, the indexes are built anew from the accounts, and an account is sent to the shard of its row. -/
structure Persistable (derive : Derivations) (s : ShardedState) : Prop where
  trees : ∀ k, State.Persistable (s.treeAt k)
  recipients : ∀ k (idHash : Hash), (s.treeAt k).hfiRecipients[idHash]? = none
  replay : ∀ k (rpCom : Hash), (s.treeAt k).zkReplayRegistry[rpCom]? = none
  idcoms : ∀ k (idcom : Hash), (s.treeAt k).hfiIdcomIndex[idcom]? = none
  alone : Alone s
  aliases : ∀ k address owner, (s.treeAt k).resolve address = some owner ↔ FirstHolder derive (s.treeAt k) owner address
  routed : RoutedByRows s

def Survives (codec : RowCodec) (derive : Derivations) (sha : List UInt8 → Hash) (s : ShardedState)
    (identity : ChainIdentityMetadata) : Prop :=
  ∃ v, (StateDb.new.persistShardedStateWithIdentity codec sha s identity).loadShardedState codec derive = .ok v ∧
    SameView s v ∧ v.computeRoot sha = s.computeRoot sha

structure ReadBack (derive : Derivations) (s v : ShardedState) : Prop where
  shards : SameShards s v
  trees : ∀ k, Loaded (bare (s.treeAt k)) (v.treeAt k)
  idcoms : ∀ k (idcom : Hash), (v.treeAt k).hfiIdcomIndex[idcom]? = none
  aliases : ∀ k address owner, (v.treeAt k).resolve address = some owner ↔ FirstHolder derive (s.treeAt k) owner address
  routed : (∀ id k, k ≠ 0 → s.Hot id k → v.targetShard id = k) ∧
    ∀ id, (∀ k, k ≠ 0 → ¬s.Hot id k) → v.targetShard id = deterministicShard id

variable {identity : ChainIdentityMetadata}

theorem readBack_of (fit : ShardIdsFit s) (readable : ∀ k, Readable codec (s.treeAt k)) (keyed : ∀ k, Keyed (s.treeAt k))
    (alone : Alone s) : ReadBack derive s (restored codec derive sha s identity) := by
  obtain ⟨indexing, shards⟩ := loadedShards_indexing codec derive sha identity fit
  obtain ⟨indexed, trees⟩ := loadedShards_treeAt codec derive sha identity fit readable keyed alone
  have readableBare : ∀ k, Readable codec (bare (s.treeAt k)) := fun k => ⟨(readable k).account, (readable k).stub⟩
  have loaded : ∀ k, Loaded (bare (s.treeAt k)) ((restored codec derive sha s identity).treeAt k) := by
    intro k
    rw [trees k]
    exact loaded_of (shardRows_of fit k) (readableBare k)
  refine ⟨shards, loaded, ?_, ?_, ?_, ?_⟩
  · intro k idcom
    have empty : (((written codec sha s identity).shardRows k).loaded codec derive).hfiIdcomIndex = ∅ := by
      have kept : ∀ (t : StateTree) row, (t.insert derive (accountOf codec row)).hfiIdcomIndex = t.hfiIdcomIndex :=
        fun _ _ => rfl
      exact (loadedStubs_same hfiIdcomIndex _ (fun _ _ => rfl)).trans
        ((loadedStorage_same hfiIdcomIndex _ (fun _ _ => rfl)).trans (foldl_same kept _ _))
    rw [trees k, empty]
    simp
  · intro k address owner
    rw [trees k, ← firstHolder_bare]
    exact resolve_loaded (shardRows_of fit k) (readableBare k) (keyed k) (shardRows_sorted _ k) address owner
  · intro id k other hot
    apply targetShard_indexed
    apply indexing.indexed id k other
    rw [hot_iff_treeAt] at hot ⊢
    have same := (loaded k).accounts (keyed k) id
    unfold contains at hot ⊢
    rw [same]
    exact hot
  · intro id cold
    apply targetShard_unindexed
    cases index : (restored codec derive sha s identity).shardIndex id with
    | none => rfl
    | some j =>
      obtain ⟨other, hot⟩ := indexed id j index
      exact absurd hot (cold j other)

theorem ReadBack.nothing (read : ReadBack derive s v) (k : Nat) (key : Hash) :
    (v.treeAt k).hfiRecipients[key]? = none ∧ (v.treeAt k).zkReplayRegistry[key]? = none := by
  constructor
  · rw [Option.eq_none_iff_forall_ne_some]
    intro bytes found
    have held := (((read.trees k).recipients key bytes).mp found).2
    simp [bare] at held
  · rw [Option.eq_none_iff_forall_ne_some]
    intro idcom found
    have held := ((read.trees k).replay key idcom).mp found
    simp [bare] at held

theorem ReadBack.sameView (read : ReadBack derive s v) (good : s.Persistable derive) : SameView s v where
  shards := read.shards
  contents k := by
    have bareGood : State.Persistable (bare (s.treeAt k)) :=
      ⟨(good.trees k).keyed, (good.trees k).stubs, (good.trees k).storage, fun idHash bytes found => by simp [bare] at found,
        (good.trees k).intents⟩
    have same := (read.trees k).same bareGood
    refine ⟨same.accounts, same.stubs, same.storage, fun idHash => ?_, same.intents, fun rpCom => ?_⟩
    · rw [(read.nothing k idHash).1, good.recipients k idHash]
    · rw [(read.nothing k rpCom).2, good.replay k rpCom]
  aliases k address := by
    apply Option.ext
    intro owner
    rw [read.aliases k address owner, good.aliases k address owner]
  idcoms k idcom := by rw [read.idcoms k idcom, good.idcoms k idcom]
  routes id := by
    by_cases hot : ∃ k, k ≠ 0 ∧ s.Hot id k
    · obtain ⟨k, other, here⟩ := hot
      rw [read.routed.1 id k other here, good.routed.hot id k other here]
    · have cold : ∀ k, k ≠ 0 → ¬s.Hot id k := fun k other here => hot ⟨k, other, here⟩
      rw [read.routed.2 id cold, good.routed.other id cold]

theorem ReadBack.persistable (read : ReadBack derive s v) (keyed : ∀ k, Keyed (s.treeAt k)) (alone : Alone s)
    (same : SameView s v) : s.Persistable derive where
  trees k := by
    have contents := same.contents k
    refine ⟨keyed k, ?_, ?_, ?_, ?_⟩
    · intro id stub found
      exact (read.trees k).stubsKeyed id stub ((contents.stubs id).trans found)
    · intro id slot value held
      exact (((read.trees k).storage id slot value).mp ((contents.storage (id, slot)).trans held)).1
    · intro idHash bytes found
      rw [← contents.recipients idHash, (read.nothing k idHash).1] at found
      cases found
    · intro intentId
      rw [← contents.intents intentId]
      exact (read.trees k).intents intentId
  recipients k idHash := ((same.contents k).recipients idHash).symm.trans (read.nothing k idHash).1
  replay k rpCom := ((same.contents k).replay rpCom).symm.trans (read.nothing k rpCom).2
  idcoms k idcom := (same.idcoms k idcom).symm.trans (read.idcoms k idcom)
  alone := alone
  aliases k address owner := by
    rw [← same.aliases k address]
    exact read.aliases k address owner
  routed := by
    refine ⟨fun id k other hot => ?_, fun id cold => ?_⟩
    · rw [← same.routes id]
      exact read.routed.1 id k other hot
    · rw [← same.routes id]
      exact read.routed.2 id cold

theorem SameView.hot (same : SameView s v) (hot : s.Hot id k) : v.Hot id k := by
  rw [hot_iff_treeAt] at hot ⊢
  unfold contains at hot ⊢
  rw [(same.contents k).accounts id]
  exact hot

theorem survives_iff (fit : ShardIdsFit s) (readable : ∀ k, Readable codec (s.treeAt k))
    (ids : codec.readShardIds (codec.shardIds (s.iterShards.map Prod.fst)) = .ok (s.iterShards.map Prod.fst)) :
    Survives codec derive sha s identity ↔ s.Persistable derive := by
  constructor
  · rintro ⟨v, done, same, -⟩
    rw [loadShardedState_eq fit readable ids] at done
    cases done
    have indexing := (loadedShards_indexing codec derive sha identity fit).1
    have keyed : ∀ k, Keyed (s.treeAt k) := by
      intro k id a found
      exact indexing.keyed k id a (((same.contents k).accounts id).trans found)
    have alone : Alone s := by
      intro id j k otherJ otherK hotJ hotK
      have first := indexing.indexed id j otherJ (same.hot hotJ)
      have second := indexing.indexed id k otherK (same.hot hotK)
      rw [first] at second
      exact Option.some.inj second
    exact (readBack_of fit readable keyed alone).persistable keyed alone same
  · intro good
    have read : ReadBack derive s (restored codec derive sha s identity) :=
      readBack_of fit readable (fun k => (good.trees k).keyed) good.alone
    have same := read.sameView good
    exact ⟨_, loadShardedState_eq fit readable ids, same, same.computeRoot_eq sha⟩

/-- A sharded state that went to disk comes back as it was exactly if its rows can hold it. -/
theorem persist_sharded_round_trip_iff (codec : RowCodec) (derive : Derivations) (sha : List UInt8 → Hash) (s : ShardedState)
    (identity : ChainIdentityMetadata) (fit : ShardIdsFit s) (readable : ∀ k tree, s.shard k = some tree → Readable codec tree)
    (ids : codec.readShardIds (codec.shardIds (s.iterShards.map Prod.fst)) = .ok (s.iterShards.map Prod.fst)) :
    Survives codec derive sha s identity ↔ s.Persistable derive := by
  apply survives_iff fit ?_ ids
  intro k
  cases there : s.shard k with
  | none =>
    unfold treeAt
    rw [there]
    refine ⟨fun id a found => ?_, fun id stub found => ?_⟩
    · cases found
    · simp [StateTree.new] at found
  | some tree =>
    rw [treeAt_of_shard there]
    exact readable k tree there

namespace SmallRestart

open SmallRows

def identityRow : ChainIdentityMetadata := ⟨1, 2, none⟩

def seventh : ShardedState := (fromStateTree new).insertIntoShard derivations 7 SmallRows.owner

def spent : ShardedState :=
  fromStateTree { StateTree.new with zkReplayRegistry := (∅ : Std.TreeMap Hash Hash).insert 4 5 }

theorem treeAt_seventh (k : Nat) : seventh.treeAt k =
    if k = 7 then StateTree.new.insert derivations SmallRows.owner else StateTree.new := by
  have placed : seventh = (fromStateTree new).place derivations 7 SmallRows.owner := rfl
  rw [placed, treeAt_place, treeAt_new, treeAt_new]

theorem get_seventh (found : (seventh.treeAt k).get id = some a) :
    k = 7 ∧ id = ⟨1⟩ ∧ a = SmallRows.owner := by
  rw [treeAt_seventh] at found
  split at found
  · rename_i same
    rw [get_insert] at found
    split at found
    · rename_i own
      cases found
      exact ⟨same, own, rfl⟩
    · cases found
  · cases found

theorem hot_seventh (hot : seventh.Hot id k) : k = 7 ∧ id = ⟨1⟩ := by
  obtain ⟨a, found⟩ := Option.isSome_iff_exists.mp (hot_iff_treeAt.mp hot)
  obtain ⟨shard, own, -⟩ := get_seventh found
  exact ⟨shard, own⟩

theorem stubs_seventh (k : Nat) (id : AccountId) : (seventh.treeAt k).stubs[id]? = none := by
  rw [treeAt_seventh]
  split
  · unfold StateTree.insert
    simp [StateTree.new]
  · simp [StateTree.new]

theorem seventh_fit : ShardIdsFit seventh := by
  intro k there
  have placed : seventh = (fromStateTree new).place derivations 7 SmallRows.owner := rfl
  rw [placed, isSome_place] at there
  by_cases own : k = 7
  · rw [own]
    decide
  · by_cases zero : k = 0
    · rw [zero]
      decide
    · simp [own, fromStateTree, ShardedState.shard, zero] at there

theorem seventh_readable (k : Nat) (tree : StateTree) (there : seventh.shard k = some tree) : Readable rows tree := by
  rw [← treeAt_of_shard there]
  refine ⟨fun id a found => ?_, fun id stub found => ?_⟩
  · obtain ⟨-, -, rfl⟩ := get_seventh found
    decide
  · rw [stubs_seventh k id] at found
    cases found

theorem seventh_trees (k : Nat) : State.Persistable (seventh.treeAt k) where
  keyed id a found := by
    obtain ⟨-, rfl, rfl⟩ := get_seventh found
    rfl
  stubs id stub found := by
    rw [stubs_seventh k id] at found
    cases found
  storage id slot value held := by
    rw [treeAt_seventh] at held
    split at held <;> simp [StateTree.cell, StateTree.insert, StateTree.new] at held
  recipients idHash bytes found := by
    rw [treeAt_seventh] at found
    split at found <;> simp [StateTree.insert, StateTree.new] at found
  intents intentId := by
    rw [treeAt_seventh]
    split <;> simp [StateTree.insert, StateTree.new]

theorem seventh_persistable : seventh.Persistable derivations where
  trees := seventh_trees
  recipients k idHash := by
    rw [treeAt_seventh]
    split <;> simp [StateTree.insert, StateTree.new]
  replay k rpCom := by
    rw [treeAt_seventh]
    split <;> simp [StateTree.insert, StateTree.new]
  idcoms k idcom := by
    rw [treeAt_seventh]
    split <;> simp [StateTree.insert, StateTree.new]
  alone id j k _ _ first second := (hot_seventh first).1.trans (hot_seventh second).1.symm
  aliases k address holder := by
    rw [treeAt_seventh]
    split
    · have come : FirstCome derivations [owner] (new.insert derivations owner) :=
        FirstCome.of_sorted (List.pairwise_singleton _ _)
      exact come.resolve address holder
    · have come : FirstCome derivations [] new := .nil
      exact come.resolve address holder
  routed := by
    have index : ∀ id, seventh.shardIndex id = if id = ⟨1⟩ then some 7 else none :=
      fun id => (place_lands derivations (fromStateTree new) 7 SmallRows.owner).index id
    refine ⟨fun id k _ hot => ?_, fun id cold => ?_⟩
    · obtain ⟨rfl, rfl⟩ := hot_seventh hot
      exact targetShard_indexed ((index ⟨1⟩).trans (if_pos rfl))
    · apply targetShard_unindexed
      rw [index, if_neg]
      rintro rfl
      apply cold 7 (by decide)
      rw [hot_iff_treeAt, treeAt_seventh, if_pos rfl]
      decide

end SmallRestart

open SmallRestart SmallRows in
theorem seventh_shard_comes_back : ShardIdsFit seventh ∧ (∀ k tree, seventh.shard k = some tree → Readable rows tree) ∧
    Survives rows derivations digest seventh identityRow :=
  ⟨seventh_fit, seventh_readable, (persist_sharded_round_trip_iff rows derivations digest seventh identityRow seventh_fit
    seventh_readable rfl).mpr seventh_persistable⟩

open SmallRestart SmallRows in
/-- A commitment that was used is refused before the restart and taken again after it. -/
theorem spent_commitment_forgotten :
    (spent.treeAt 0).zkReplayConsume 4 5 = none ∧
      (∃ v, (StateDb.new.persistShardedStateWithIdentity rows digest spent identityRow).loadShardedState rows
        derivations = .ok v ∧
        ((v.treeAt 0).zkReplayConsume 4 5).isSome = true) ∧
      ¬Survives rows derivations digest spent identityRow := by
  have fit : ShardIdsFit spent := by
    intro k there
    by_cases zero : k = 0
    · rw [zero]
      decide
    · simp [spent, fromStateTree, ShardedState.shard, zero] at there
  have contents : ∀ k, (spent.treeAt k).accounts = ∅ ∧ (spent.treeAt k).stubs = ∅ := by
    intro k
    unfold treeAt spent fromStateTree ShardedState.shard
    by_cases zero : k = 0
    · simp [zero, StateTree.new]
    · simp [zero, StateTree.new]
  have empty : ∀ k id, (spent.treeAt k).get id = none := by
    intro k id
    unfold StateTree.get
    rw [(contents k).1]
    simp
  have readable : ∀ k, Readable rows (spent.treeAt k) := by
    intro k
    refine ⟨fun id a found => ?_, fun id stub found => ?_⟩
    · rw [empty k id] at found
      cases found
    · rw [(contents k).2] at found
      simp at found
  refine ⟨?_, ⟨_, loadShardedState_eq fit readable rfl, ?_⟩, ?_⟩
  · unfold zkReplayConsume
    rfl
  · unfold zkReplayConsume
    rfl
  · intro survived
    have none_ := ((survives_iff fit readable rfl).mp survived).replay 0 4
    cases none_

end ShardedState

end AceChain.State
