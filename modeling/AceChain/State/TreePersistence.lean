import AceChain.State.Persistence

namespace AceChain.State

open AceChain.Runtime Lib Hfi StateTree StateTree Table Std.TreeMap

def StateTree.cell (t : StateTree) (at_ : AccountId × Hash) : Option Hash := ((t.contractStorage[at_.1]?).getD ∅)[at_.2]?

structure SameContents (t t' : StateTree) : Prop where
  accounts : ∀ id, t'.get id = t.get id
  stubs : ∀ id : AccountId, t'.stubs[id]? = t.stubs[id]?
  storage : ∀ at_, t'.cell at_ = t.cell at_
  recipients : ∀ idHash : Hash, t'.hfiRecipients[idHash]? = t.hfiRecipients[idHash]?
  intents : ∀ intentId : Hash, t'.hfiIntents[intentId]? = t.hfiIntents[intentId]?
  replay : ∀ rpCom : Hash, t'.zkReplayRegistry[rpCom]? = t.zkReplayRegistry[rpCom]?

variable {codec : RowCodec} {derive : Derivations} {sha : List UInt8 → Hash} {t t' : StateTree} {id : AccountId} {a : Account}

theorem storageBytes_congr {storage storage' : Option Storage}
    (same : ∀ slot : Hash, (storage.getD ∅)[slot]? = (storage'.getD ∅)[slot]?) :
    storageBytes storage = storageBytes storage' := by
  rw [storageBytes_eq, storageBytes_eq, storageList_eq, storageList_eq, toList_eq_of_lookup same]

theorem SameContents.computeRoot_eq (same : SameContents t t') (sha : List UInt8 → Hash) :
    t'.computeRoot sha = t.computeRoot sha := by
  apply computeRoot_congr
  have tiers : ∀ id : AccountId, (t'.tierHashes sha)[id]? = (t.tierHashes sha)[id]? := by
    intro id
    have storage : storageBytes t'.contractStorage[id]? = storageBytes t.contractStorage[id]? :=
      storageBytes_congr (fun slot => same.storage (id, slot))
    rw [lookup_tierHashes, lookup_tierHashes, same.accounts, same.stubs, storage]
  unfold leafHashes
  rw [toList_eq_of_lookup tiers, toList_eq_of_lookup same.intents, toList_eq_of_lookup same.recipients,
    toList_eq_of_lookup same.replay]

/-- What a tree must be for its rows to hold all of it: accounts and stubs are under their own ids, only hot accounts have
storage, a recipient is long enough to be read back, and no intent is pending. -/
structure Persistable (t : StateTree) : Prop where
  keyed : Keyed t
  stubs : ∀ (id : AccountId) stub, t.stubs[id]? = some stub → stub.idCom = id
  storage : ∀ id slot value, t.cell (id, slot) = some value → t.contains id = true
  recipients : ∀ (idHash : Hash) bytes, t.hfiRecipients[idHash]? = some bytes → 96 ≤ bytes.length
  intents : ∀ intentId : Hash, t.hfiIntents[intentId]? = none

theorem cell_setStorage (t : StateTree) (id : AccountId) (slot value : Hash) (at_ : AccountId × Hash) :
    (t.setStorage id slot value).cell at_ = if at_ = (id, slot) then some value else t.cell at_ := by
  obtain ⟨other, key⟩ := at_
  unfold cell setStorage
  rw [lookup_insert]
  by_cases same : other = id
  · subst same
    rw [if_pos rfl, Option.getD_some, lookup_insert]
    simp only [Prod.mk.injEq, true_and]
  · rw [if_neg same, if_neg (fun equal => same (congrArg Prod.fst equal))]

namespace StateDb

section Rows

theorem lookup_clear {table : Table} (short : ∀ key : List UInt8, 80 ≤ key.length → table[key]? = none) (key : List UInt8) :
    (clear table)[key]? = none :=
  lookup_deleteRange short key

theorem lookup_clear_empty (key : List UInt8) : (clear ∅)[key]? = none :=
  lookup_clear (fun _ _ => by simp) key

theorem shardBytes_zero : shardBytes 0 = [] := rfl

theorem idKey_injective {id' : AccountId} (same : hashBytes id.bytes = hashBytes id'.bytes) : id = id' := by
  cases id
  cases id'
  exact congrArg AccountId.mk (hashBytes_injective same)

theorem storageKey_injective {id' : AccountId} {slot slot' : Hash}
    (same : hashBytes id.bytes ++ hashBytes slot = hashBytes id'.bytes ++ hashBytes slot') : id = id' ∧ slot = slot' := by
  obtain ⟨first, second⟩ := List.append_inj same (by simp)
  exact ⟨idKey_injective first, hashBytes_injective second⟩

/-- A column family: the pairs of a tree that have rows, and the rows they have. -/
structure Column {κ β : Type} (n : Nat) (rel : StateTree → κ → β → Prop) (key : κ → List UInt8) (value : β → List UInt8)
    (rows : Nat → StateTree → List (List UInt8 × List UInt8)) : Prop where
  codes : ∀ shard t, Codes (rel t) (fun k => shardBytes shard ++ key k) value (rows shard t)
  sized : ∀ k, (key k).length = n
  injective : ∀ k k', key k = key k' → k = k'
  single : ∀ t k b b', rel t k b → rel t k b' → b = b'
  empty : ∀ k b, ¬rel StateTree.new k b

theorem Column.functional {κ β : Type} {n : Nat} {rel : StateTree → κ → β → Prop} {key : κ → List UInt8}
    {value : β → List UInt8}
    {rows : Nat → StateTree → List (List UInt8 × List UInt8)} (column : Column n rel key value rows) (shard : Nat)
    (t : StateTree) :
    Functional (rows shard t) := by
  apply (column.codes shard t).functional
  intro k b k' b' held held' same
  have keys := column.injective k k' (List.append_cancel_left same)
  exact column.single t k b b' held (keys ▸ held')

theorem some_unique {β : Type} {found : Option β} (b b' : β) (first : found = some b) (second : found = some b') : b = b' :=
  Option.some.inj (first.symm.trans second)

theorem accountColumn (codec : RowCodec) :
    Column 32 (fun t id a => t.get id = some a) (fun id => hashBytes id.bytes) codec.account (accountRows codec) where
  codes _ t := codes_toList t.accounts
  sized := by simp
  injective _ _ := idKey_injective
  single _ _ := some_unique
  empty id a found := by cases found

theorem stubColumn (codec : RowCodec) : Column 32 (fun t (id : AccountId) stub => t.stubs[id]? = some stub)
    (fun id => hashBytes id.bytes) codec.stub (stubRows codec) where
  codes _ t := codes_toList t.stubs
  sized := by simp
  injective _ _ := idKey_injective
  single _ _ := some_unique
  empty id stub found := by simp [StateTree.new] at found

theorem storageColumn : Column 64 (fun t (at_ : AccountId × Hash) value => t.contains at_.1 = true ∧ t.cell at_ = some value)
    (fun at_ => hashBytes at_.1.bytes ++ hashBytes at_.2) hashBytes storageRows where
  codes shard t row := by
    unfold storageRows
    rw [List.mem_flatMap]
    constructor
    · rintro ⟨⟨id, a⟩, listed, inside⟩
      have found : t.get id = some a := mem_toList_iff_getElem?_eq_some.mp listed
      cases held : t.contractStorage[id]? with
      | none =>
        rw [held] at inside
        cases inside
      | some storage =>
        rw [held] at inside
        obtain ⟨⟨slot, value⟩, stored, rfl⟩ := List.mem_map.mp inside
        refine ⟨(id, slot), value, ⟨contains_of_get found, ?_⟩, rfl⟩
        unfold cell
        rw [held]
        exact mem_toList_iff_getElem?_eq_some.mp stored
    · rintro ⟨⟨id, slot⟩, value, ⟨hot, stored⟩, rfl⟩
      obtain ⟨a, found⟩ := Option.isSome_iff_exists.mp hot
      refine ⟨(id, a), mem_toList_iff_getElem?_eq_some.mpr found, ?_⟩
      unfold cell at stored
      cases held : t.contractStorage[id]? with
      | none =>
        rw [held] at stored
        simp at stored
      | some storage =>
        rw [held] at stored
        exact List.mem_map.mpr ⟨(slot, value), mem_toList_iff_getElem?_eq_some.mpr stored, rfl⟩
  sized := by simp
  injective at_ at_' same := by
    obtain ⟨first, second⟩ := storageKey_injective same
    exact Prod.ext first second
  single _ _ b b' held held' := some_unique b b' held.2 held'.2
  empty at_ value held := by cases held.1

theorem hashRows_functional {β : Type} (entries : Std.TreeMap Hash β) (encode : β → List UInt8) :
    Functional (entries.toList.map (fun entry => (hashBytes entry.1, encode entry.2))) := by
  apply (codes_toList entries).functional
  intro key b key' b' found found' same
  exact some_unique b b' found (hashBytes_injective same ▸ found')

end Rows

section Load

variable (row : List UInt8 × List UInt8)

def storageEntry : Option ((AccountId × Hash) × Hash) :=
  if row.1.length = 64 ∧ row.2.length = 32 then some ((⟨beHash (row.1.take 32)⟩, beHash (row.1.drop 32)),
    beHash row.2) else none

def recipientEntry : Option (Hash × List UInt8) :=
  if row.1.length = 32 ∧ 96 ≤ row.2.length then some (beHash row.1, row.2) else none

def replayEntry : Option (Hash × Hash) :=
  if row.1.length = 32 ∧ row.2.length = 32 then some (beHash row.1, beHash row.2) else none

theorem storageEntry_key (id : AccountId) (slot value : Hash) :
    storageEntry (hashBytes id.bytes ++ hashBytes slot, hashBytes value) = some ((id, slot), value) := by
  have first : (hashBytes id.bytes ++ hashBytes slot).take 32 = hashBytes id.bytes := List.take_left' (by simp)
  have second : (hashBytes id.bytes ++ hashBytes slot).drop 32 = hashBytes slot := List.drop_left' (by simp)
  unfold storageEntry
  rw [if_pos (by simp), first, second, beHash_hashBytes, beHash_hashBytes, beHash_hashBytes]

theorem recipientEntry_key (idHash : Hash) (bytes : List UInt8) :
    recipientEntry (hashBytes idHash, bytes) = if 96 ≤ bytes.length then some (idHash, bytes) else none := by
  unfold recipientEntry
  simp only [length_hashBytes, true_and, beHash_hashBytes]

theorem replayEntry_key (rpCom idcom : Hash) : replayEntry (hashBytes rpCom, hashBytes idcom) = some (rpCom, idcom) := by
  unfold replayEntry
  rw [if_pos (by simp), beHash_hashBytes, beHash_hashBytes]

variable {rows : List (List UInt8 × List UInt8)} {u : StateTree}

theorem cell_loadStorage
    (codes : Codes (fun (at_ : AccountId × Hash) value => t.contains at_.1 = true ∧ t.cell at_ = some value)
      (fun at_ => hashBytes at_.1.bytes ++ hashBytes at_.2) hashBytes rows) (empty : ∀ at_, u.cell at_ = none)
    (at_ : AccountId × Hash) (value : Hash) :
    (rows.foldl loadStorageRow u).cell at_ = some value ↔ t.contains at_.1 = true ∧ t.cell at_ = some value := by
  have enters : Enters cell loadStorageRow storageEntry := by
    apply Enters.of_insert
    intro u row at_
    unfold storageEntry loadStorageRow
    split
    · exact cell_setStorage u _ _ _ at_
    · rfl
  exact codes.lookup_foldl_all enters (storageColumn.single t) (fun at_ value _ => storageEntry_key at_.1 at_.2 value)
    empty at_ value

theorem hfiRecipients_put (u : StateTree) (idHash idcom : Hash) (bytes : List UInt8) :
    (u.hfiRecipientPut idHash idcom bytes).hfiRecipients = u.hfiRecipients.insert idHash bytes := rfl

theorem loadRecipients
    (codes : Codes (fun (idHash : Hash) bytes => t.hfiRecipients[idHash]? = some bytes) hashBytes (fun bytes => bytes)
      rows) (empty : ∀ idHash : Hash, u.hfiRecipients[idHash]? = none) (idHash : Hash) (bytes : List UInt8) :
    (rows.foldl loadRecipientRow u).hfiRecipients[idHash]? = some bytes ↔
      96 ≤ bytes.length ∧ t.hfiRecipients[idHash]? = some bytes := by
  have enters : Enters (fun (u : StateTree) (idHash : Hash) => u.hfiRecipients[idHash]?) loadRecipientRow recipientEntry := by
    apply Enters.of_insert
    intro u row idHash
    unfold recipientEntry loadRecipientRow
    split
    · rw [hfiRecipients_put, lookup_insert]
      rfl
    · rfl
  exact codes.lookup_foldl enters (fun _ => some_unique) (fun idHash bytes _ => recipientEntry_key idHash bytes)
    empty idHash bytes

theorem loadReplays
    (codes : Codes (fun (rpCom : Hash) idcom => t.zkReplayRegistry[rpCom]? = some idcom) hashBytes hashBytes rows)
    (empty : ∀ rpCom : Hash, u.zkReplayRegistry[rpCom]? = none) (rpCom idcom : Hash) :
    (rows.foldl loadReplayRow u).zkReplayRegistry[rpCom]? = some idcom ↔ t.zkReplayRegistry[rpCom]? = some idcom := by
  have enters : Enters (fun (u : StateTree) (rpCom : Hash) => u.zkReplayRegistry[rpCom]?) loadReplayRow replayEntry := by
    constructor
    · intro u row rpCom idcom entry before
      unfold replayEntry at entry
      unfold loadReplayRow zkReplayConsume
      split at entry
      · rename_i sized
        cases entry
        rw [if_pos sized]
        rw [contains_eq_isSome_getElem?]
        rcases before with none_ | some_
        · rw [none_]
          exact getElem?_insert_self
        · rw [some_]
          exact some_
      · cases entry
    · intro u row rpCom miss
      unfold loadReplayRow zkReplayConsume
      by_cases sized : row.1.length = 32 ∧ row.2.length = 32
      · rw [if_pos sized]
        split
        · rfl
        rw [Option.getD_some]
        rw [lookup_insert, if_neg]
        rintro rfl
        exact miss _ (if_pos sized)
      · rw [if_neg sized]
  exact codes.lookup_foldl_all enters (fun _ => some_unique) (fun rpCom idcom _ => replayEntry_key rpCom idcom)
    empty rpCom idcom

end Load

section RoundTrip

variable (codec derive sha)

structure Readable (t : StateTree) : Prop where
  account : ∀ id a, t.get id = some a → codec.readAccount (codec.account a) = .ok a
  stub : ∀ (id : AccountId) stub, t.stubs[id]? = some stub → codec.readStub (codec.stub stub) = .ok stub

variable (row : List UInt8 × List UInt8)

def accountOf : Account := ((codec.readAccount row.2).toOption).getD (Account.new ⟨0⟩)

def stubOf : AccountStub := ((codec.readStub row.2).toOption).getD ⟨⟨0⟩, 0, 0⟩

structure TreeRows where
  accounts : List (List UInt8 × List UInt8)
  contractStorage : List (List UInt8 × List UInt8)
  accountStubs : List (List UInt8 × List UInt8)
  hfiRecipients : List (List UInt8 × List UInt8)
  zkReplayRegistry : List (List UInt8 × List UInt8)

def treeRows (db : StateDb) : TreeRows :=
  ⟨db.accounts.toList, db.contractStorage.toList, db.accountStubs.toList, db.hfiRecipients.toList, db.zkReplayRegistry.toList⟩

namespace TreeRows

variable (rows : TreeRows)

def loadedAccounts : StateTree :=
  rows.accounts.foldl (fun t row => t.insert derive (accountOf codec row)) StateTree.new

def loadedStorage : StateTree := rows.contractStorage.foldl loadStorageRow (rows.loadedAccounts codec derive)

def loadedStubs : StateTree :=
  rows.accountStubs.foldl (fun t row => t.insertStub (stubOf codec row)) (rows.loadedStorage codec derive)

def loadedRecipients : StateTree := rows.hfiRecipients.foldl loadRecipientRow (rows.loadedStubs codec derive)

def loaded : StateTree := rows.zkReplayRegistry.foldl loadReplayRow (rows.loadedRecipients codec derive)

structure Of (t : StateTree) (rows : TreeRows) : Prop where
  accounts : ∀ row, row ∈ rows.accounts ↔ ∃ id a, t.get id = some a ∧ row = (hashBytes id.bytes, codec.account a)
  contractStorage : ∀ row, row ∈ rows.contractStorage ↔ ∃ id slot value, t.contains id = true ∧
    t.cell (id, slot) = some value ∧ row = (hashBytes id.bytes ++ hashBytes slot, hashBytes value)
  accountStubs : ∀ row, row ∈ rows.accountStubs ↔ ∃ (id : AccountId) (stub : AccountStub), t.stubs[id]? = some stub ∧
    row = (hashBytes id.bytes, codec.stub stub)
  hfiRecipients : ∀ row, row ∈ rows.hfiRecipients ↔ ∃ (idHash : Hash) (bytes : List UInt8),
    t.hfiRecipients[idHash]? = some bytes ∧ row = (hashBytes idHash, bytes)
  zkReplayRegistry : ∀ row, row ∈ rows.zkReplayRegistry ↔ ∃ rpCom idcom : Hash,
    t.zkReplayRegistry[rpCom]? = some idcom ∧ row = (hashBytes rpCom, hashBytes idcom)

end TreeRows

open TreeRows

def Restores (t : StateTree) : Prop :=
  ∃ u, (StateDb.new.persistTree codec sha t).loadTree codec derive = .ok u ∧ SameContents t u ∧
    u.computeRoot sha = t.computeRoot sha

structure SameRows (db db' : StateDb) : Prop where
  accounts : ∀ key : List UInt8, db'.accounts[key]? = db.accounts[key]?
  contractStorage : ∀ key : List UInt8, db'.contractStorage[key]? = db.contractStorage[key]?
  stateMeta : ∀ key : List UInt8, db'.stateMeta[key]? = db.stateMeta[key]?
  accountStubs : ∀ key : List UInt8, db'.accountStubs[key]? = db.accountStubs[key]?
  hfiRecipients : ∀ key : List UInt8, db'.hfiRecipients[key]? = db.hfiRecipients[key]?
  zkReplayRegistry : ∀ key : List UInt8, db'.zkReplayRegistry[key]? = db.zkReplayRegistry[key]?

variable {codec derive sha}

theorem rows_persisted (t : StateTree) : Of codec t (StateDb.new.persistTree codec sha t).treeRows where
  accounts := ((accountColumn codec).codes 0 t).put ((accountColumn codec).functional 0 t) lookup_clear_empty
  contractStorage row := by
    have codes := (storageColumn.codes 0 t).put (storageColumn.functional 0 t) lookup_clear_empty row
    simp only [Prod.exists, and_assoc] at codes
    exact codes
  accountStubs := ((stubColumn codec).codes 0 t).put ((stubColumn codec).functional 0 t) lookup_clear_empty
  hfiRecipients := (codes_toList t.hfiRecipients).put (hashRows_functional t.hfiRecipients id) lookup_clear_empty
  zkReplayRegistry := (codes_toList t.zkReplayRegistry).put
    (hashRows_functional t.zkReplayRegistry hashBytes) lookup_clear_empty

theorem accountOf_row (readable : Readable codec t) (found : t.get id = some a) (key : List UInt8) :
    accountOf codec (key, codec.account a) = a := by
  unfold accountOf
  rw [readable.account id a found]
  rfl

theorem stubOf_row (readable : Readable codec t) {stub : AccountStub} (found : t.stubs[id]? = some stub) (key : List UInt8) :
    stubOf codec (key, codec.stub stub) = stub := by
  unfold stubOf
  rw [readable.stub id stub found]
  rfl

variable {rows : TreeRows}

theorem readAccount_row (readable : Readable codec t) (of : rows.Of codec t) (row : List UInt8 × List UInt8)
    (member : row ∈ rows.accounts) : codec.readAccount row.2 = .ok (accountOf codec row) := by
  obtain ⟨id, a, found, rfl⟩ := (of.accounts row).mp member
  rw [accountOf_row readable found]
  exact readable.account id a found

theorem readStub_row (readable : Readable codec t) (of : rows.Of codec t) (row : List UInt8 × List UInt8)
    (member : row ∈ rows.accountStubs) : codec.readStub row.2 = .ok (stubOf codec row) := by
  obtain ⟨id, stub, found, rfl⟩ := (of.accountStubs row).mp member
  rw [stubOf_row readable found]
  exact readable.stub id stub found

theorem loadTree_eq (readable : Readable codec t) : (StateDb.new.persistTree codec sha t).loadTree codec derive =
    .ok ((StateDb.new.persistTree codec sha t).treeRows.loaded codec derive) := by
  have of : Of codec t (StateDb.new.persistTree codec sha t).treeRows := rows_persisted t
  have accounts := foldlM_ok (fun t _ a => t.insert derive a) (readAccount_row readable of) StateTree.new
  have stubs := foldlM_ok (fun t _ stub => t.insertStub stub) (readStub_row readable of)
    ((StateDb.new.persistTree codec sha t).treeRows.loadedStorage codec derive)
  unfold loadedStorage loadedAccounts treeRows at stubs
  unfold treeRows at accounts
  unfold loadTree
  rw [accounts]
  simp only [bind, Except.bind, pure, Except.pure]
  rw [stubs]
  rfl

structure Loaded (t u : StateTree) : Prop where
  keyed : Keyed u
  stubsKeyed : ∀ (id : AccountId) stub, u.stubs[id]? = some stub → stub.idCom = id
  accounts : Keyed t → ∀ id, u.get id = t.get id
  stubs : (∀ (id : AccountId) stub, t.stubs[id]? = some stub → stub.idCom = id) → ∀ id : AccountId, u.stubs[id]? = t.stubs[id]?
  storage : ∀ id slot value, u.cell (id, slot) = some value ↔ t.contains id = true ∧ t.cell (id, slot) = some value
  recipients : ∀ (idHash : Hash) bytes, u.hfiRecipients[idHash]? = some bytes ↔
    96 ≤ bytes.length ∧ t.hfiRecipients[idHash]? = some bytes
  intents : ∀ intentId : Hash, u.hfiIntents[intentId]? = none
  replay : ∀ rpCom idcom : Hash, u.zkReplayRegistry[rpCom]? = some idcom ↔ t.zkReplayRegistry[rpCom]? = some idcom

section Frames

variable {γ : Type} (f : StateTree → γ) (rows : TreeRows)

theorem loadedStorage_same (blind : ∀ u storage, f { u with contractStorage := storage } = f u) :
    f (rows.loadedStorage codec derive) = f (rows.loadedAccounts codec derive) := by
  apply foldl_same
  intro u row
  unfold loadStorageRow
  split
  · exact blind u _
  · rfl

theorem loadedStubs_same (blind : ∀ u stubs, f { u with stubs := stubs } = f u) :
    f (rows.loadedStubs codec derive) = f (rows.loadedStorage codec derive) := by
  apply foldl_same
  intro u row
  exact blind u _

theorem loadedRecipients_same
    (blind : ∀ u recipients index, f { u with hfiRecipients := recipients, hfiIdcomIndex := index } = f u) :
    f (rows.loadedRecipients codec derive) = f (rows.loadedStubs codec derive) := by
  apply foldl_same
  intro u row
  unfold loadRecipientRow
  split
  · exact blind u _ _
  · rfl

theorem loaded_same (blind : ∀ u registry, f { u with zkReplayRegistry := registry } = f u) :
    f (rows.loaded codec derive) = f (rows.loadedRecipients codec derive) := by
  apply foldl_same
  intro u row
  unfold loadReplayRow zkReplayConsume
  split
  · split
    · rfl
    · exact blind u _
  · rfl

structure OnlyAccounts (u : StateTree) : Prop where
  keyed : Keyed u
  stubs : ∀ id : AccountId, u.stubs[id]? = none
  contractStorage : u.contractStorage = ∅
  hfiRecipients : u.hfiRecipients = ∅
  hfiIntents : u.hfiIntents = ∅
  zkReplayRegistry : u.zkReplayRegistry = ∅

theorem loadedAccounts_only : OnlyAccounts (rows.loadedAccounts codec derive) := by
  refine List.foldlRecOn (motive := OnlyAccounts) _ _ ?_ ?_
  · exact ⟨fun id a found => (by cases found), fun id => (by simp [StateTree.new]), rfl, rfl, rfl, rfl⟩
  · intro u only row _
    refine ⟨only.keyed.insert derive _, fun id => ?_, only.contractStorage, only.hfiRecipients, only.hfiIntents,
      only.zkReplayRegistry⟩
    unfold StateTree.insert
    rw [lookup_erase, only.stubs id, ite_self]

theorem loadedStorage_stubs (id : AccountId) : (rows.loadedStorage codec derive).stubs[id]? = none := by
  rw [loadedStorage_same stubs rows (fun _ _ => rfl)]
  exact (loadedAccounts_only rows).stubs id

theorem loaded_accounts : (rows.loaded codec derive).accounts = (rows.loadedAccounts codec derive).accounts := by
  rw [loaded_same StateTree.accounts rows (fun _ _ => rfl), loadedRecipients_same StateTree.accounts rows (fun _ _ _ => rfl),
    loadedStubs_same StateTree.accounts rows (fun _ _ => rfl), loadedStorage_same StateTree.accounts rows (fun _ _ => rfl)]

theorem loaded_stubs : (rows.loaded codec derive).stubs = (rows.loadedStubs codec derive).stubs := by
  rw [loaded_same stubs rows (fun _ _ => rfl), loadedRecipients_same stubs rows (fun _ _ _ => rfl)]

theorem loaded_contractStorage :
    (rows.loaded codec derive).contractStorage = (rows.loadedStorage codec derive).contractStorage := by
  rw [loaded_same StateTree.contractStorage rows (fun _ _ => rfl),
    loadedRecipients_same StateTree.contractStorage rows (fun _ _ _ => rfl),
    loadedStubs_same StateTree.contractStorage rows (fun _ _ => rfl)]

theorem loaded_hfiIntents : (rows.loaded codec derive).hfiIntents = ∅ := by
  rw [loaded_same hfiIntents rows (fun _ _ => rfl), loadedRecipients_same hfiIntents rows (fun _ _ _ => rfl),
    loadedStubs_same hfiIntents rows (fun _ _ => rfl), loadedStorage_same hfiIntents rows (fun _ _ => rfl)]
  exact (loadedAccounts_only rows).hfiIntents

theorem loadedStubs_hfiRecipients : (rows.loadedStubs codec derive).hfiRecipients = ∅ := by
  rw [loadedStubs_same StateTree.hfiRecipients rows (fun _ _ => rfl),
    loadedStorage_same StateTree.hfiRecipients rows (fun _ _ => rfl)]
  exact (loadedAccounts_only rows).hfiRecipients

theorem loadedRecipients_zkReplayRegistry : (rows.loadedRecipients codec derive).zkReplayRegistry = ∅ := by
  rw [loadedRecipients_same StateTree.zkReplayRegistry rows (fun _ _ _ => rfl),
    loadedStubs_same StateTree.zkReplayRegistry rows (fun _ _ => rfl),
    loadedStorage_same StateTree.zkReplayRegistry rows (fun _ _ => rfl)]
  exact (loadedAccounts_only rows).zkReplayRegistry

end Frames

theorem get_loadedAccounts (of : rows.Of codec t) (readable : Readable codec t) (keyed : Keyed t) (id : AccountId)
    (a : Account) :
    (rows.loadedAccounts codec derive).get id = some a ↔ t.get id = some a := by
  have codes : Codes (fun id a => t.get id = some a) (fun id => hashBytes id.bytes) codec.account rows.accounts := of.accounts
  have reads : ∀ id a, t.get id = some a → some ((accountOf codec (hashBytes id.bytes, codec.account a)).idCom,
      accountOf codec (hashBytes id.bytes, codec.account a)) = some (id, a) := by
    intro id a found
    rw [accountOf_row readable found, keyed id a found]
  have enters : Enters get (fun u row => u.insert derive (accountOf codec row))
      (fun row => some ((accountOf codec row).idCom, accountOf codec row)) := .of_insert fun _ _ id => get_insert derive id
  exact codes.lookup_foldl_all enters (fun _ => some_unique) reads (fun _ => rfl) id a

theorem stubs_loadedStubs (of : rows.Of codec t) (readable : Readable codec t)
    (keyed : ∀ (id : AccountId) stub, t.stubs[id]? = some stub → stub.idCom = id) (id : AccountId) (stub : AccountStub) :
    (rows.loadedStubs codec derive).stubs[id]? = some stub ↔ t.stubs[id]? = some stub := by
  have codes : Codes (fun (id : AccountId) stub => t.stubs[id]? = some stub) (fun id => hashBytes id.bytes) codec.stub
    rows.accountStubs := of.accountStubs
  have reads : ∀ (id : AccountId) stub, t.stubs[id]? = some stub →
      some ((stubOf codec (hashBytes id.bytes, codec.stub stub)).idCom,
      stubOf codec (hashBytes id.bytes, codec.stub stub)) = some (id, stub) := by
    intro id stub found
    rw [stubOf_row readable found, keyed id stub found]
  have enters : Enters (fun (u : StateTree) (id : AccountId) => u.stubs[id]?) (fun u row => u.insertStub (stubOf codec row))
      (fun row => some ((stubOf codec row).idCom, stubOf codec row)) :=
    .of_insert fun u row id => lookup_insert u.stubs (stubOf codec row).idCom id (stubOf codec row)
  exact codes.lookup_foldl_all enters (fun _ => some_unique) reads (loadedStorage_stubs rows) id stub

theorem loadedStubs_keyed (rows : TreeRows) (id : AccountId) (stub : AccountStub)
    (found : (rows.loadedStubs codec derive).stubs[id]? = some stub) : stub.idCom = id := by
  revert id stub
  refine List.foldlRecOn
    (motive := fun u : StateTree => ∀ (id : AccountId) stub, u.stubs[id]? = some stub → stub.idCom = id) _ _ ?_ ?_
  · intro id stub found
    rw [loadedStorage_stubs] at found
    cases found
  · intro u own row _ id stub found
    unfold insertStub at found
    rw [lookup_insert] at found
    split at found
    · rename_i same
      cases found
      exact same.symm
    · exact own id stub found

theorem loaded_of (of : rows.Of codec t) (readable : Readable codec t) : Loaded t (rows.loaded codec derive) where
  keyed := (loadedAccounts_only _).keyed.of_accounts (loaded_accounts _)
  stubsKeyed := by
    intro id stub found
    rw [loaded_stubs] at found
    exact loadedStubs_keyed _ id stub found
  accounts := by
    intro keyed id
    have same : (rows.loaded codec derive).get id =
        (rows.loadedAccounts codec derive).get id := by
      unfold StateTree.get
      rw [loaded_accounts]
    rw [same]
    exact Option.ext (get_loadedAccounts of readable keyed id)
  stubs := by
    intro keyed id
    rw [loaded_stubs]
    exact Option.ext (stubs_loadedStubs of readable keyed id)
  storage := by
    intro id slot value
    unfold cell
    rw [loaded_contractStorage]
    refine cell_loadStorage (fun row => ?_) (fun at_ => ?_) (id, slot) value
    · simpa only [Prod.exists, and_assoc] using of.contractStorage row
    · unfold cell
      rw [(loadedAccounts_only _).contractStorage]
      simp
  recipients := by
    intro idHash bytes
    rw [loaded_same StateTree.hfiRecipients _ (fun _ _ => rfl)]
    apply loadRecipients of.hfiRecipients
    intro idHash
    rw [loadedStubs_hfiRecipients]
    simp
  intents := by
    intro intentId
    rw [loaded_hfiIntents]
    simp
  replay := by
    apply loadReplays of.zkReplayRegistry
    intro rpCom
    rw [loadedRecipients_zkReplayRegistry]
    simp

theorem Loaded.same {u : StateTree} (read : Loaded t u) (good : Persistable t) : SameContents t u where
  accounts := read.accounts good.keyed
  stubs := read.stubs good.stubs
  storage := by
    rintro ⟨id, slot⟩
    apply Option.ext
    intro value
    rw [read.storage id slot value]
    exact ⟨fun held => held.2, fun held => ⟨good.storage id slot value held, held⟩⟩
  recipients := by
    intro idHash
    apply Option.ext
    intro bytes
    rw [read.recipients idHash bytes]
    exact ⟨fun held => held.2, fun held => ⟨good.recipients idHash bytes held, held⟩⟩
  intents := fun intentId => (read.intents intentId).trans (good.intents intentId).symm
  replay := fun rpCom => Option.ext (read.replay rpCom)

theorem Loaded.persistable {u : StateTree} (read : Loaded t u) (same : SameContents t u) : Persistable t where
  keyed := fun id a found => read.keyed id a ((same.accounts id).trans found)
  stubs := fun id stub found => read.stubsKeyed id stub ((same.stubs id).trans found)
  storage := fun id slot value held => ((read.storage id slot value).mp ((same.storage (id, slot)).trans held)).1
  recipients := fun idHash bytes held => ((read.recipients idHash bytes).mp ((same.recipients idHash).trans held)).1
  intents := fun intentId => (same.intents intentId).symm.trans (read.intents intentId)

theorem restores_iff (readable : Readable codec t) : Restores codec derive sha t ↔ Persistable t := by
  have read : Loaded t ((StateDb.new.persistTree codec sha t).treeRows.loaded codec derive) :=
    loaded_of (rows_persisted t) readable
  constructor
  · rintro ⟨u, done, same, -⟩
    rw [loadTree_eq readable] at done
    cases done
    exact read.persistable same
  · intro good
    exact ⟨_, loadTree_eq readable, read.same good, (read.same good).computeRoot_eq sha⟩

end RoundTrip

section Overwrite

theorem lookup_put_clear {rows : List (List UInt8 × List UInt8)} (functional : Functional rows) {table : Table}
    (short : ∀ row ∈ table.toList, row.1.length < 80) (key : List UInt8) :
    ((clear table).put rows)[key]? = ((clear ∅).put rows)[key]? := by
  have empty : ∀ key : List UInt8, (clear table)[key]? = none := by
    apply lookup_clear
    intro key long
    cases found : table[key]? with
    | none => rfl
    | some value =>
      have bound := short (key, value) (mem_toList_iff_getElem?_eq_some.mpr found)
      dsimp only at bound
      omega
  apply Option.ext
  intro value
  rw [lookup_put functional empty, lookup_put functional lookup_clear_empty]

theorem chainIdentityMetadata_persistTree (codec : RowCodec) (sha : List UInt8 → Hash) (t : StateTree) :
    (StateDb.new.persistTree codec sha t).chainIdentityMetadata = none := by
  rfl

theorem persistTree_overwrites (first t : StateTree) :
    SameRows (StateDb.new.persistTree codec sha t) ((StateDb.new.persistTree codec sha first).persistTree codec sha t) where
  accounts := by
    apply lookup_put_clear ((accountColumn codec).functional 0 t)
    intro row member
    obtain ⟨id, a, -, rfl⟩ := ((rows_persisted first).accounts row).mp member
    simp
  contractStorage := by
    apply lookup_put_clear (storageColumn.functional 0 t)
    intro row member
    obtain ⟨id, slot, value, -, -, rfl⟩ := ((rows_persisted first).contractStorage row).mp member
    simp
  stateMeta := by
    intro key
    have fresh : StateDb.new.chainIdentityMetadata = none := rfl
    have again := chainIdentityMetadata_persistTree codec sha first
    unfold persistTree at again ⊢
    rw [again, fresh]
    unfold persistTreeInner
    simp only [put, List.foldl_cons, List.foldl_nil]
    rw [lookup_insert, lookup_insert, lookup_insert]
    split <;> rfl
  accountStubs := by
    apply lookup_put_clear ((stubColumn codec).functional 0 t)
    intro row member
    obtain ⟨id, stub, -, rfl⟩ := ((rows_persisted first).accountStubs row).mp member
    simp
  hfiRecipients := by
    apply lookup_put_clear (hashRows_functional t.hfiRecipients id)
    intro row member
    obtain ⟨idHash, bytes, -, rfl⟩ := ((rows_persisted first).hfiRecipients row).mp member
    simp
  zkReplayRegistry := by
    apply lookup_put_clear (hashRows_functional t.zkReplayRegistry hashBytes)
    intro row member
    obtain ⟨rpCom, idcom, -, rfl⟩ := ((rows_persisted first).zkReplayRegistry row).mp member
    simp

/-- A tree comes back whole from an empty database exactly if it is persistable; whatever tree was in the database
before leaves no row. -/
theorem persist_tree_round_trip_iff (codec : RowCodec) (derive : Derivations) (sha : List UInt8 → Hash) (t : StateTree)
    (readable : Readable codec t) :
    (Restores codec derive sha t ∧ ∀ first : StateTree, SameRows (StateDb.new.persistTree codec sha t)
      ((StateDb.new.persistTree codec sha first).persistTree codec sha t)) ↔ Persistable t := by
  constructor
  · rintro ⟨restored, -⟩
    exact (restores_iff readable).mp restored
  · intro good
    exact ⟨(restores_iff readable).mpr good, fun first => persistTree_overwrites first t⟩

end Overwrite

namespace SmallRows

def digest (bytes : List UInt8) : Hash := BitVec.ofNat 256 (leNat bytes)

def derivations : Derivations := .ofWidths (Account.computeStubHash digest) digest

def rows : RowCodec where
  account a := leBytes 8 a.balance
  readAccount bytes := .ok { Account.new ⟨1⟩ with balance := leNat bytes }
  stub stub := leBytes 8 stub.expiredAtSlot
  readStub bytes := .ok ⟨⟨2⟩, 0, leNat bytes⟩
  shardIds ids := ids.map Nat.toUInt8
  readShardIds bytes := .ok (bytes.map UInt8.toNat)

def owner : Account := { Account.new ⟨1⟩ with balance := 5 }

def recipient : List UInt8 := List.replicate 96 0

def tree : StateTree :=
  { (StateTree.new.insert derivations owner).setStorage ⟨1⟩ 7 1 with
    stubs := (∅ : Std.TreeMap AccountId AccountStub).insert ⟨2⟩ ⟨⟨2⟩, 0, 9⟩
    hfiRecipients := (∅ : Std.TreeMap Hash (List UInt8)).insert 3 recipient
    zkReplayRegistry := (∅ : Std.TreeMap Hash Hash).insert 4 5 }

def pending : StateTree := { tree with hfiIntents := (∅ : Std.TreeMap Hash (List UInt8)).insert 6 [1] }

theorem get_tree (found : tree.get id = some a) : id = ⟨1⟩ ∧ a = owner := by
  have same : tree.get id = if id = ⟨1⟩ then some owner else none := get_insert derivations id
  rw [same] at found
  split at found
  · rename_i same
    cases found
    exact ⟨same, rfl⟩
  · cases found

theorem stubs_tree {stub : AccountStub} (found : tree.stubs[id]? = some stub) :
    id = ⟨2⟩ ∧ stub = ⟨⟨2⟩, 0, 9⟩ := by
  unfold tree at found
  rw [lookup_insert] at found
  split at found
  · rename_i same
    cases found
    exact ⟨same, rfl⟩
  · simp at found

theorem readable : Readable rows tree where
  account id a found := by
    obtain ⟨-, rfl⟩ := get_tree found
    decide
  stub id stub found := by
    obtain ⟨-, rfl⟩ := stubs_tree found
    decide

theorem persistable : Persistable tree where
  keyed id a found := by
    obtain ⟨rfl, rfl⟩ := get_tree found
    rfl
  stubs id stub found := by
    obtain ⟨rfl, rfl⟩ := stubs_tree found
    rfl
  storage id slot value held := by
    have stored : tree.cell (id, slot) = if (id, slot) = ((⟨1⟩ : AccountId), (7 : Hash)) then some 1 else none :=
      cell_setStorage (StateTree.new.insert derivations owner) ⟨1⟩ 7 1 (id, slot)
    rw [stored] at held
    split at held
    · rename_i same
      rw [(Prod.mk.inj same).1]
      decide
    · cases held
  recipients idHash bytes found := by
    unfold tree at found
    rw [lookup_insert] at found
    split at found
    · cases found
      decide
    · simp at found
  intents intentId := by
    unfold tree
    simp [StateTree.setStorage, StateTree.insert, StateTree.new]

end SmallRows

open SmallRows

theorem small_tree_comes_back : Readable rows tree ∧ Persistable tree ∧
    Restores rows derivations digest tree :=
  ⟨readable, persistable, ((persist_tree_round_trip_iff rows derivations digest
    tree readable).mpr persistable).1⟩

/-- A pending intent has no row: it is gone after a restart, and the root is another one. -/
theorem pending_intent_lost :
    pending.hfiIntents[(6 : Hash)]? = some [1] ∧
      (∃ u, (StateDb.new.persistTree rows digest pending).loadTree rows
        derivations = .ok u ∧ u.hfiIntents[(6 : Hash)]? = none) ∧
      ¬Restores rows derivations digest pending := by
  have readable : Readable rows pending := ⟨readable.account, readable.stub⟩
  have held : pending.hfiIntents[(6 : Hash)]? = some [1] := getElem?_insert_self
  refine ⟨held, ⟨_, loadTree_eq readable, (loaded_of (rows_persisted _) readable).intents 6⟩, ?_⟩
  intro restored
  have none_ := ((restores_iff readable).mp restored).intents 6
  cases none_

end StateDb

end AceChain.State
