import AceChain.State.MerkleRoot

namespace AceChain.State

open Lib Lib.Merkle Relation StateTree Leaf Std.TreeMap Account List

/-- A tree with the version each expired account had when it expired. -/
structure Traced where
  tree : StateTree
  version : AccountId → Account × Option Storage

section

variable (sha : List UInt8 → Hash)

namespace Traced

def tier (s : Traced) : Std.TreeMap AccountId Leaf :=
  tierLeaves (fun id _ => .stub (hashedFields sha (s.version id).1) (storageList (s.version id).2))
    (fun id a => .account (hashedFields sha a) (storageList s.tree.contractStorage[id]?)) s.tree

def leaves (s : Traced) : List Leaf :=
  (s.tier sha).toList.map Prod.snd ++ s.tree.hfiIntents.toList.map (fun entry => intent entry.1 entry.2) ++
    s.tree.hfiRecipients.toList.map (fun entry => recipient entry.1 entry.2) ++
    s.tree.zkReplayRegistry.toList.map (fun entry => replay entry.1 entry.2)

def hashInputs (s : Traced) : Set (List UInt8) :=
  insert (asciiBytes "ACE-EMPTY-STATE-V1") ({bytes | ∃ l ∈ s.leaves sha, l.bytes = bytes} ∪
    {bytes | ∃ pair ∈ combined (hashPair sha) (s.tree.leafHashes sha), hashBytes pair.1 ++ hashBytes pair.2 = bytes})

/-- Accounts stand under their own id, and a stub is the hash of the version that expired. -/
structure Genuine (s : Traced) : Prop where
  keyed : Keyed s.tree
  cold : ∀ (id : AccountId) stub, s.tree.stubs[id]? = some stub → s.tree.get id = none ∧ stub.idCom = id ∧
    (s.version id).1.idCom = id ∧ stub.hash = (s.version id).1.computeStubHash sha (s.version id).2

/-- Every leaf can be told from the others and from an inner node by its bytes. -/
structure Readable (s : Traced) : Prop where
  accounts : ∀ id a, s.tree.get id = some a → a.Sized ∧ ∀ d ∈ domains, ¬ d <+: hashBytes id.bytes
  stubs : ∀ id, s.tree.isStubbed id = true → (s.version id).1.Sized
  intents : ∀ (id : Hash) value, s.tree.hfiIntents[id]? = some value → value.length ≠ 18
  recipients : ∀ (id : Hash) value, s.tree.hfiRecipients[id]? = some value → value.length ≠ 15

end Traced

structure Agrees (t u : StateTree) : Prop where
  accounts : ∀ id, (t.get id).map (hashedFields sha) = (u.get id).map (hashedFields sha)
  stubs : ∀ id : AccountId, t.stubs[id]? = u.stubs[id]?
  intents : ∀ id : Hash, t.hfiIntents[id]? = u.hfiIntents[id]?
  recipients : ∀ id : Hash, t.hfiRecipients[id]? = u.hfiRecipients[id]?
  replays : ∀ rpCom : Hash, t.zkReplayRegistry[rpCom]? = u.zkReplayRegistry[rpCom]?
  storage : ∀ id slot, t.getStorage id slot = u.getStorage id slot

end

def SameColdStorage (t u : StateTree) : Prop :=
  ∀ id, t.contains id = false → ∀ slot, t.getStorage id slot = u.getStorage id slot

def SameExpirySlots (t u : StateTree) : Prop := ∀ (id : AccountId) stub stub', t.stubs[id]? = some stub →
  u.stubs[id]? = some stub' → stub.expiredAtSlot = stub'.expiredAtSlot

namespace Traced

variable {sha : List UInt8 → Hash} {s s' : Traced}

theorem lookup_tier (s : Traced) (id : AccountId) : (s.tier sha)[id]? =
    match s.tree.get id with
    | some a => some (.account (hashedFields sha a) (storageList s.tree.contractStorage[id]?))
    | none => s.tree.stubs[id]?.map (fun _ => .stub (hashedFields sha (s.version id).1) (storageList (s.version id).2)) :=
  lookup_tierLeaves _ _ s.tree id

theorem tier_cases {id : AccountId} {l : Leaf} (found : (s.tier sha)[id]? = some l) :
    (∃ a, s.tree.get id = some a ∧ l = .account (hashedFields sha a) (storageList s.tree.contractStorage[id]?)) ∨
      ∃ stub, s.tree.get id = none ∧ s.tree.stubs[id]? = some stub ∧
        l = .stub (hashedFields sha (s.version id).1) (storageList (s.version id).2) := by
  rw [lookup_tier] at found
  cases held : s.tree.get id with
  | some a =>
    rw [held] at found
    cases found
    exact .inl ⟨a, rfl, rfl⟩
  | none =>
    rw [held] at found
    obtain ⟨stub, stubbed, rfl⟩ := Option.map_eq_some_iff.mp found
    exact .inr ⟨stub, rfl, stubbed, rfl⟩

theorem Genuine.tierId (genuine : s.Genuine sha) (id : AccountId) (l : Leaf) (found : (s.tier sha)[id]? = some l) :
    l.tierId = id := by
  rcases tier_cases found with ⟨a, held, rfl⟩ | ⟨stub, -, stubbed, rfl⟩
  · exact genuine.keyed id a held
  · exact (genuine.cold id stub stubbed).2.2.1

theorem Genuine.leafHashes (genuine : s.Genuine sha) :
    s.tree.leafHashes sha = (s.leaves sha).map (fun l => sha l.bytes) := by
  have tiers : (s.tree.tierHashes sha).toList.map Prod.snd =
      ((s.tier sha).toList.map Prod.snd).map (fun l => sha l.bytes) := by
    rw [Traced.tier, ← tierLeaves_map (fun l : Leaf => sha l.bytes) _ _ (fun _ stub => stub.hash)]
    · unfold StateTree.tierHashes
      simp only [storageBytes_eq]
      rfl
    · intro id stub stubbed
      rw [(genuine.cold id stub stubbed).2.2.2]
      unfold computeStubHash stubBytes
      rw [storageBytes_eq, append_assoc]
      rfl
  unfold StateTree.leafHashes Traced.leaves
  simp only [tiers, map_append, List.map_map, append_assoc]
  rfl

theorem mem_leaves {l : Leaf} (listed : l ∈ s.leaves sha) :
    (∃ id : AccountId, (s.tier sha)[id]? = some l) ∨
      (∃ (id : Hash) (value : List UInt8), s.tree.hfiIntents[id]? = some value ∧ l = .intent id value) ∨
      (∃ (id : Hash) (value : List UInt8), s.tree.hfiRecipients[id]? = some value ∧ l = .recipient id value) ∨
      ∃ rpCom idcom, l = .replay rpCom idcom := by
  simp only [Traced.leaves, mem_append, mem_map, Prod.exists, or_assoc] at listed
  rcases listed with ⟨id, leaf, held, rfl⟩ | ⟨id, value, held, rfl⟩ | ⟨id, value, held, rfl⟩ | ⟨rpCom, idcom, -, rfl⟩
  · exact .inl ⟨id, mem_toList_iff_getElem?_eq_some.mp held⟩
  · exact .inr (.inl ⟨id, value, mem_toList_iff_getElem?_eq_some.mp held, rfl⟩)
  · exact .inr (.inr (.inl ⟨id, value, mem_toList_iff_getElem?_eq_some.mp held, rfl⟩))
  · exact .inr (.inr (.inr ⟨rpCom, idcom, rfl⟩))

theorem regular (genuine : s.Genuine sha) (readable : s.Readable) {l : Leaf} (listed : l ∈ s.leaves sha) : l.Regular := by
  rcases mem_leaves listed with ⟨id, found⟩ | ⟨id, value, held, rfl⟩ | ⟨id, value, held, rfl⟩ | ⟨rpCom, idcom, rfl⟩
  · rcases tier_cases found with ⟨a, held, rfl⟩ | ⟨stub, -, stubbed, rfl⟩
    · obtain ⟨sized, unreserved⟩ := readable.accounts id a held
      have own : a.idCom = id := genuine.keyed id a held
      refine ⟨sized.hashed sha, ?_⟩
      change ∀ d ∈ domains, ¬ d <+: hashBytes a.idCom.bytes
      rw [own]
      exact unreserved
    · exact (readable.stubs id (isStubbed_iff.mpr ⟨stub, stubbed⟩)).hashed sha
  · exact readable.intents id value held
  · exact readable.recipients id value held
  · trivial

theorem tier_kind {l : Leaf} (listed : l ∈ (s.tier sha).toList.map Prod.snd) : l.kind = .account ∨ l.kind = .stub := by
  obtain ⟨⟨id, leaf⟩, held, rfl⟩ := List.mem_map.mp listed
  rcases tier_cases (mem_toList_iff_getElem?_eq_some.mp held) with ⟨a, -, rfl⟩ | ⟨stub, -, -, rfl⟩
  · exact .inl rfl
  · exact .inr rfl

theorem nodup_leaves (genuine : s.Genuine sha) : (s.leaves sha).Nodup := by
  have tiers : ((s.tier sha).toList.map Prod.snd).Nodup := by
    apply (nodup_toList _).map_on
    rintro ⟨id, l⟩ first ⟨id', l'⟩ second (rfl : l = l')
    have own := genuine.tierId id l (mem_toList_iff_getElem?_eq_some.mp first)
    have own' := genuine.tierId id' l (mem_toList_iff_getElem?_eq_some.mp second)
    rw [← own, ← own']
  have intents := (nodup_toList s.tree.hfiIntents).map (f := fun entry => intent entry.1 entry.2) (by
    rintro ⟨_, _⟩ ⟨_, _⟩ ⟨⟩; rfl)
  have recipients := (nodup_toList s.tree.hfiRecipients).map (f := fun entry => recipient entry.1 entry.2) (by
    rintro ⟨_, _⟩ ⟨_, _⟩ ⟨⟩; rfl)
  have replays := (nodup_toList s.tree.zkReplayRegistry).map (f := fun entry => replay entry.1 entry.2) (by
    rintro ⟨_, _⟩ ⟨_, _⟩ ⟨⟩; rfl)
  refine ((tiers.append intents ?_).append recipients ?_).append replays ?_
  · intro l first second
    obtain ⟨entry, -, rfl⟩ := List.mem_map.mp second
    rcases tier_kind first with kind | kind <;> cases kind
  · intro l first second
    obtain ⟨entry, -, rfl⟩ := List.mem_map.mp second
    rcases List.mem_append.mp first with listed | listed
    · rcases tier_kind listed with kind | kind <;> cases kind
    · obtain ⟨entry, -, ⟨⟩⟩ := List.mem_map.mp listed
  · intro l first second
    obtain ⟨entry, -, rfl⟩ := List.mem_map.mp second
    rcases List.mem_append.mp first with listed | listed
    · rcases List.mem_append.mp listed with listed | listed
      · rcases tier_kind listed with kind | kind <;> cases kind
      · obtain ⟨entry, -, ⟨⟩⟩ := List.mem_map.mp listed
    · obtain ⟨entry, -, ⟨⟩⟩ := List.mem_map.mp listed

theorem leaf_bytes_injective (genuine : s.Genuine sha) (genuine' : s'.Genuine sha) (readable : s.Readable)
    (readable' : s'.Readable) (free : Set.InjOn sha (s.hashInputs sha ∪ s'.hashInputs sha)) :
    Set.InjOn (fun l : Leaf => sha l.bytes) {l | l ∈ s.leaves sha ∨ l ∈ s'.leaves sha} := by
  have inside : ∀ l, l ∈ s.leaves sha ∨ l ∈ s'.leaves sha → l.Regular ∧ l.bytes ∈ s.hashInputs sha ∪ s'.hashInputs sha := by
    rintro l (listed | listed)
    · exact ⟨regular genuine readable listed, .inl (.inr (.inl ⟨l, listed, rfl⟩))⟩
    · exact ⟨regular genuine' readable' listed, .inr (.inr (.inl ⟨l, listed, rfl⟩))⟩
  intro l first l' second same
  exact bytes_injective (inside l first).1 (inside l' second).1 (free (inside l first).2 (inside l' second).2 same)

theorem computeRoot_ne_empty (genuine : s.Genuine sha) (readable : s.Readable) {inputs : Set (List UInt8)}
    (free : Set.InjOn sha inputs) (within : s.hashInputs sha ⊆ inputs) (some_ : s.tree.leafHashes sha ≠ []) :
    s.tree.computeRoot sha ≠ sha (asciiBytes "ACE-EMPTY-STATE-V1") := by
  intro same
  have empty : asciiBytes "ACE-EMPTY-STATE-V1" ∈ inputs := within (.inl rfl)
  have size : (asciiBytes "ACE-EMPTY-STATE-V1").length = 18 := by decide
  rcases ReflTransGen.cases_tail (rises_computeRoot sha some_) with single | ⟨nodes, above, several, single⟩
  · have member : s.tree.computeRoot sha ∈ s.tree.leafHashes sha := single ▸ mem_cons_self
    rw [genuine.leafHashes] at member
    obtain ⟨l, listed, equal⟩ := List.mem_map.mp member
    have bytes := free (within (.inr (.inl ⟨l, listed, rfl⟩))) empty (equal.trans same)
    have long := (length_bytes (regular genuine readable listed)).2
    rw [bytes, size] at long
    omega
  · have member : s.tree.computeRoot sha ∈ level (hashPair sha) nodes := single ▸ mem_cons_self
    obtain ⟨pair, listed, equal⟩ := List.mem_map.mp member
    have bytes := free (within (.inr (.inr ⟨pair, ⟨nodes, above, several, listed⟩, rfl⟩))) empty (equal.trans same)
    have long := congrArg List.length bytes
    rw [size, length_append, length_hashBytes, length_hashBytes] at long
    omega

theorem leaves_eq (genuine : s.Genuine sha) (genuine' : s'.Genuine sha) (readable : s.Readable)
    (readable' : s'.Readable) (free : Set.InjOn sha (s.hashInputs sha ∪ s'.hashInputs sha))
    (same : s.tree.computeRoot sha = s'.tree.computeRoot sha) : s.leaves sha = s'.leaves sha := by
  have injective := leaf_bytes_injective genuine genuine' readable readable' free
  have distinct : (s.tree.leafHashes sha).Nodup := by
    rw [genuine.leafHashes]
    exact (nodup_leaves genuine).map_on (fun l first l' second => injective (.inl first) (.inl second))
  have distinct' : (s'.tree.leafHashes sha).Nodup := by
    rw [genuine'.leafHashes]
    exact (nodup_leaves genuine').map_on (fun l first l' second => injective (.inr first) (.inr second))
  have hashes : s.tree.leafHashes sha = s'.tree.leafHashes sha := by
    by_cases none_ : s.tree.leafHashes sha = []
    · by_cases none' : s'.tree.leafHashes sha = []
      · rw [none_, none']
      · have empty := computeRoot_empty sha none_
        exact absurd (same.symm.trans empty) (computeRoot_ne_empty genuine' readable' free Set.subset_union_right none')
    · by_cases none' : s'.tree.leafHashes sha = []
      · have empty := computeRoot_empty sha none'
        exact absurd (same.trans empty) (computeRoot_ne_empty genuine readable free Set.subset_union_left none_)
      have rises := rises_computeRoot sha none_
      have rises' := rises_computeRoot sha none'
      rw [← same] at rises'
      -- a pair and what it is hashed from are both among the inputs, and a leaf is never as long as a pair
      have inside : ∀ pair ∈ combined (hashPair sha) (s.tree.leafHashes sha) ∪ combined (hashPair sha)
          (s'.tree.leafHashes sha),
          hashBytes pair.1 ++ hashBytes pair.2 ∈ s.hashInputs sha ∪ s'.hashInputs sha := by
        rintro pair (listed | listed)
        · exact .inl (.inr (.inr ⟨pair, listed, rfl⟩))
        · exact .inr (.inr (.inr ⟨pair, listed, rfl⟩))
      refine leaves_eq_of_root distinct distinct' none_ none' ?_ ?_ rises rises'
      · intro pair first pair' second equal
        obtain ⟨left, right⟩ := append_inj (free (inside pair first) (inside pair' second) equal) (by simp)
        exact Prod.ext (hashBytes_injective left) (hashBytes_injective right)
      · rintro hash leaf pair listed rfl
        have bytes : ∃ l : Leaf, l.Regular ∧ l.bytes ∈ s.hashInputs sha ∪ s'.hashInputs sha ∧
            sha l.bytes = hashPair sha pair.1 pair.2 := by
          rw [genuine.leafHashes, genuine'.leafHashes] at leaf
          rcases leaf with leaf | leaf
          · obtain ⟨l, listed, equal⟩ := List.mem_map.mp leaf
            exact ⟨l, regular genuine readable listed, .inl (.inr (.inl ⟨l, listed, rfl⟩)), equal⟩
          · obtain ⟨l, listed, equal⟩ := List.mem_map.mp leaf
            exact ⟨l, regular genuine' readable' listed, .inr (.inr (.inl ⟨l, listed, rfl⟩)), equal⟩
        obtain ⟨l, regular, input, equal⟩ := bytes
        have size := congrArg List.length (free input (inside pair listed) equal)
        exact (length_bytes regular).1 size
  rw [genuine.leafHashes, genuine'.leafHashes] at hashes
  exact eq_of_map_eq injective hashes

theorem leaves_sections (sha : List UInt8 → Hash) (s : Traced) :
    (s.leaves sha).filterMap tier? = (s.tier sha).toList.map Prod.snd ∧
    (s.leaves sha).filterMap intent? = s.tree.hfiIntents.toList ∧
    (s.leaves sha).filterMap recipient? = s.tree.hfiRecipients.toList ∧
    (s.leaves sha).filterMap replay? = s.tree.zkReplayRegistry.toList := by
  have tiers : ∀ l ∈ (s.tier sha).toList.map Prod.snd,
      l.tier? = some l ∧ l.intent? = none ∧ l.recipient? = none ∧ l.replay? = none := by
    intro l listed
    have kind := tier_kind listed
    cases l with
    | account fields entries => exact ⟨rfl, rfl, rfl, rfl⟩
    | stub fields entries => exact ⟨rfl, rfl, rfl, rfl⟩
    | _ => rcases kind with kind | kind <;> cases kind
  have kept : ((s.tier sha).toList.map Prod.snd).filterMap tier? = (s.tier sha).toList.map Prod.snd := by
    rw [filterMap_congr (g := some) (fun l listed => (tiers l listed).1), filterMap_some]
  have intents := List.filterMap_eq_nil_iff.mpr (fun l listed => (tiers l listed).2.1)
  have recipients := List.filterMap_eq_nil_iff.mpr (fun l listed => (tiers l listed).2.2.1)
  have replays := List.filterMap_eq_nil_iff.mpr (fun l listed => (tiers l listed).2.2.2)
  unfold Traced.leaves
  simp only [filterMap_append, kept, intents, recipients, replays, filterMap_map]
  simp [Function.comp_def, tier?, intent?, recipient?, replay?]

section

variable (genuine : s.Genuine sha) (genuine' : s'.Genuine sha) (same : s.leaves sha = s'.leaves sha)

include genuine genuine' same

theorem tier_eq (id : AccountId) : (s.tier sha)[id]? = (s'.tier sha)[id]? := by
  apply lookup_eq_of_toList
  apply toList_eq_of_values (fun id l => genuine.tierId id l) (fun id l => genuine'.tierId id l)
  rw [← (leaves_sections sha s).1, ← (leaves_sections sha s').1, same]

variable {id : AccountId}

theorem hot_of_leaves {a : Account} (held : s.tree.get id = some a) :
    ∃ a', s'.tree.get id = some a' ∧ hashedFields sha a = hashedFields sha a' ∧
      storageList s.tree.contractStorage[id]? = storageList s'.tree.contractStorage[id]? := by
  have found : (s'.tier sha)[id]? = some (.account (hashedFields sha a) (storageList s.tree.contractStorage[id]?)) := by
    rw [← tier_eq genuine genuine' same, lookup_tier, held]
  rcases tier_cases found with ⟨a', held', equal⟩ | ⟨stub, -, -, equal⟩
  · obtain ⟨fields, entries⟩ := account.inj equal
    exact ⟨a', held', fields, entries⟩
  · cases equal

theorem stub_of_leaves {stub : AccountStub} (stubbed : s.tree.stubs[id]? = some stub) :
    ∃ stub', s'.tree.stubs[id]? = some stub' ∧ stub.idCom = stub'.idCom ∧ stub.hash = stub'.hash := by
  obtain ⟨cold, own, -, hash⟩ := genuine.cold id stub stubbed
  have found : (s'.tier sha)[id]? =
      some (.stub (hashedFields sha (s.version id).1) (storageList (s.version id).2)) := by
    rw [← tier_eq genuine genuine' same, lookup_tier, cold, stubbed]
    rfl
  rcases tier_cases found with ⟨a', -, equal⟩ | ⟨stub', -, stubbed', equal⟩
  · cases equal
  · obtain ⟨-, own', -, hash'⟩ := genuine'.cold id stub' stubbed'
    obtain ⟨fields, entries⟩ := Leaf.stub.inj equal
    refine ⟨stub', stubbed', own.trans own'.symm, ?_⟩
    rw [hash, hash']
    unfold computeStubHash stubBytes toHashBytes
    rw [storageBytes_eq, storageBytes_eq, fields, entries]

theorem accounts_of_leaves (id : AccountId) :
    (s.tree.get id).map (hashedFields sha) = (s'.tree.get id).map (hashedFields sha) := by
  cases held : s.tree.get id with
  | some a =>
    obtain ⟨a', held', fields, -⟩ := hot_of_leaves genuine genuine' same held
    rw [held', Option.map_some, Option.map_some, fields]
  | none =>
    cases held' : s'.tree.get id with
    | none => rfl
    | some a' =>
      obtain ⟨a, found, -⟩ := hot_of_leaves genuine' genuine same.symm held'
      rw [held] at found
      cases found

theorem storage_of_leaves (hot : s.tree.contains id = true) (slot : Hash) :
    s.tree.getStorage id slot = s'.tree.getStorage id slot := by
  obtain ⟨a, held⟩ := Option.isSome_iff_exists.mp hot
  obtain ⟨-, -, -, entries⟩ := hot_of_leaves genuine genuine' same held
  rw [getStorage_eq, getStorage_eq, lookup_of_storageList entries]

theorem stubs_of_leaves (slots : SameExpirySlots s.tree s'.tree) (id : AccountId) :
    s.tree.stubs[id]? = s'.tree.stubs[id]? := by
  cases stubbed : s.tree.stubs[id]? with
  | some stub =>
    obtain ⟨stub', stubbed', own, hash⟩ := stub_of_leaves genuine genuine' same stubbed
    have slot := slots id stub stub' stubbed stubbed'
    rw [stubbed']
    congr 1
    obtain ⟨_, _, _⟩ := stub
    simp_all
  | none =>
    cases stubbed' : s'.tree.stubs[id]? with
    | none => rfl
    | some stub' =>
      obtain ⟨stub, found, -⟩ := stub_of_leaves genuine' genuine same.symm stubbed'
      rw [stubbed] at found
      cases found

end

/-- Without a collision, what a root leaves open is the storage under ids with no hot account and the expiry slots. -/
theorem agrees_iff (genuine : s.Genuine sha) (genuine' : s'.Genuine sha) (readable : s.Readable)
    (readable' : s'.Readable) (free : Set.InjOn sha (s.hashInputs sha ∪ s'.hashInputs sha))
    (root : s.tree.computeRoot sha = s'.tree.computeRoot sha) :
    Agrees sha s.tree s'.tree ↔ SameColdStorage s.tree s'.tree ∧ SameExpirySlots s.tree s'.tree := by
  have same := leaves_eq genuine genuine' readable readable' free root
  obtain ⟨-, intents, recipients, replays⟩ := leaves_sections sha s
  obtain ⟨-, intents', recipients', replays'⟩ := leaves_sections sha s'
  constructor
  · intro agrees
    refine ⟨fun id _ slot => agrees.storage id slot, fun id stub stub' stubbed stubbed' => ?_⟩
    have equal := agrees.stubs id
    rw [stubbed, stubbed'] at equal
    rw [Option.some.inj equal]
  · rintro ⟨storage, slots⟩
    refine ⟨accounts_of_leaves genuine genuine' same, stubs_of_leaves genuine genuine' same slots, ?_, ?_, ?_, ?_⟩
    · exact fun id => lookup_eq_of_toList (by rw [← intents, ← intents', same]) id
    · exact fun id => lookup_eq_of_toList (by rw [← recipients, ← recipients', same]) id
    · exact fun id => lookup_eq_of_toList (by rw [← replays, ← replays', same]) id
    · intro id slot
      cases hot : s.tree.contains id with
      | true => exact storage_of_leaves genuine genuine' same hot slot
      | false => exact storage id hot slot

end Traced

end AceChain.State
