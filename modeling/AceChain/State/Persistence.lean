import AceChain.Hfi.Recipient
import AceChain.Lib.Table
import AceChain.State.MerkleRoot
import AceChain.State.ShardedState

namespace AceChain.State

open AceChain.Runtime Lib Hfi

structure StateDb where
  accounts : Table
  contractStorage : Table
  stateMeta : Table
  accountStubs : Table
  hfiRecipients : Table
  zkReplayRegistry : Table

namespace StateDb

def new : StateDb := ⟨∅, ∅, ∅, ∅, ∅, ∅⟩

def metaStateRoot : List UInt8 := asciiBytes "state_root"

def metaGenesisHash : List UInt8 := asciiBytes "genesis_hash"

def metaGenesisTimeMs : List UInt8 := asciiBytes "genesis_time_ms"

def metaGenesisConfigHash : List UInt8 := asciiBytes "genesis_config_hash"

def metaShardIds : List UInt8 := asciiBytes "shard_ids"

end StateDb

structure ChainIdentityMetadata where
  genesisHash : Hash
  genesisTimeMs : Nat
  genesisConfigHash : Option Hash
deriving DecidableEq

structure RowCodec where
  account : Account → List UInt8
  readAccount : List UInt8 → Except String Account
  stub : AccountStub → List UInt8
  readStub : List UInt8 → Except String AccountStub
  shardIds : List Nat → List UInt8
  readShardIds : List UInt8 → Except String (List Nat)

/-- The default shard has keys without a shard id. -/
def shardBytes (shard : Nat) : List UInt8 := if shard = 0 then [] else (leBytes 8 shard).reverse

def keyShard (key : List UInt8) : Nat := leNat (key.take 8).reverse

def ShardedState.iterShards (s : ShardedState) : List (Nat × StateTree) :=
  (0, s.defaultShard) :: s.otherShards.toList.filter (fun entry => entry.1 ≠ 0)

/-- A single shard's root is taken as it is. -/
def ShardedState.computeRoot (sha : List UInt8 → Hash) (s : ShardedState) : Hash :=
  if s.iterShards.length = 1 then s.defaultShard.computeRoot sha
  else
    sha (asciiBytes "ACE-SHARDED-STATE-V1" ++
      s.iterShards.flatMap (fun entry => leBytes 8 entry.1 ++ hashBytes (entry.2.computeRoot sha)))

def ShardedState.shardMut (s : ShardedState) (shard : Nat) (f : StateTree → StateTree) : ShardedState :=
  s.setShard shard (f ((s.shard shard).getD StateTree.new))

namespace StateDb

section Write

variable (codec : RowCodec) (sha : List UInt8 → Hash)

def clear (table : Table) : Table := table.deleteRange [] (List.replicate 80 0xFF)

def accountRows (shard : Nat) (tree : StateTree) : List (List UInt8 × List UInt8) :=
  tree.accounts.toList.map (fun entry => (shardBytes shard ++ hashBytes entry.1.bytes, codec.account entry.2))

/-- Only the storage of hot accounts is written. -/
def storageRows (shard : Nat) (tree : StateTree) : List (List UInt8 × List UInt8) :=
  tree.accounts.toList.flatMap (fun entry =>
    match tree.contractStorage[entry.1]? with
    | some storage => storage.toList.map (fun cell =>
        (shardBytes shard ++ (hashBytes entry.1.bytes ++ hashBytes cell.1), hashBytes cell.2))
    | none => [])

def stubRows (shard : Nat) (tree : StateTree) : List (List UInt8 × List UInt8) :=
  tree.stubs.toList.map (fun entry => (shardBytes shard ++ hashBytes entry.1.bytes, codec.stub entry.2))

def identityRows (identity : ChainIdentityMetadata) : List (List UInt8 × List UInt8) :=
  [(metaGenesisHash, hashBytes identity.genesisHash), (metaGenesisTimeMs, leBytes 8 identity.genesisTimeMs)] ++
    match identity.genesisConfigHash with
    | some hash => [(metaGenesisConfigHash, hashBytes hash)]
    | none => []

variable (db : StateDb)

def chainIdentityMetadata : Option ChainIdentityMetadata := do
  let genesisHash ← db.stateMeta[metaGenesisHash]?
  let genesisTimeMs ← db.stateMeta[metaGenesisTimeMs]?
  if genesisHash.length ≠ 32 ∨ genesisTimeMs.length ≠ 8 then none
  else
    some ⟨beHash genesisHash, leNat genesisTimeMs,
      db.stateMeta[metaGenesisConfigHash]?.bind (fun bytes => if bytes.length ≠ 32 then none else some (beHash bytes))⟩

/-- One batch: the old rows go and those of the tree come. The pending intents have no column family. -/
def persistTreeInner (tree : StateTree) (chainIdentity : Option ChainIdentityMetadata) : StateDb where
  accounts := (clear db.accounts).put (accountRows codec 0 tree)
  contractStorage := (clear db.contractStorage).put (storageRows 0 tree)
  stateMeta := db.stateMeta.put ((metaStateRoot, hashBytes (tree.computeRoot sha)) ::
    match chainIdentity with
    | some identity => identityRows identity
    | none => [])
  accountStubs := (clear db.accountStubs).put (stubRows codec 0 tree)
  hfiRecipients := (clear db.hfiRecipients).put (tree.hfiRecipients.toList.map (fun entry => (hashBytes entry.1, entry.2)))
  zkReplayRegistry :=
    (clear db.zkReplayRegistry).put (tree.zkReplayRegistry.toList.map (fun entry => (hashBytes entry.1, hashBytes entry.2)))

def persistTree (tree : StateTree) : StateDb := db.persistTreeInner codec sha tree db.chainIdentityMetadata

/-- The families of the recipients and of the replay registry are left alone. -/
def persistShardedStateWithIdentity (s : ShardedState) (identity : ChainIdentityMetadata) : StateDb :=
  { db with
    accounts := (clear db.accounts).put (s.iterShards.flatMap (fun entry => accountRows codec entry.1 entry.2))
    contractStorage := (clear db.contractStorage).put (s.iterShards.flatMap (fun entry => storageRows entry.1 entry.2))
    accountStubs := (clear db.accountStubs).put (s.iterShards.flatMap (fun entry => stubRows codec entry.1 entry.2))
    stateMeta := db.stateMeta.put ((metaShardIds, codec.shardIds (s.iterShards.map Prod.fst)) ::
      (metaStateRoot, hashBytes (s.computeRoot sha)) :: identityRows identity) }

end Write

section Read

variable (codec : RowCodec) (derive : Derivations) (t : StateTree)

def loadStorageRow (row : List UInt8 × List UInt8) : StateTree :=
  if row.1.length = 64 ∧ row.2.length = 32 then
    t.setStorage ⟨beHash (row.1.take 32)⟩ (beHash (row.1.drop 32)) (beHash row.2)
  else t

def loadRecipientRow (row : List UInt8 × List UInt8) : StateTree :=
  if row.1.length = 32 ∧ 96 ≤ row.2.length then t.hfiRecipientPut (beHash row.1) (hashAt row.2 64) row.2 else t

def loadReplayRow (row : List UInt8 × List UInt8) : StateTree :=
  if row.1.length = 32 ∧ row.2.length = 32 then (t.zkReplayConsume (beHash row.1) (beHash row.2)).getD t else t

variable (db : StateDb)

def loadTree : Except String StateTree := do
  let t ← db.accounts.toList.foldlM (fun t row => (codec.readAccount row.2).map (fun a => t.insert derive a)) StateTree.new
  let t := db.contractStorage.toList.foldl loadStorageRow t
  let t ← db.accountStubs.toList.foldlM (fun t row => (codec.readStub row.2).map (fun stub => t.insertStub stub)) t
  let t := db.hfiRecipients.toList.foldl loadRecipientRow t
  return db.zkReplayRegistry.toList.foldl loadReplayRow t

variable (s : ShardedState)

/-- The length of the key tells the default shard from the others. -/
def loadShardAccount (key : List UInt8) (a : Account) : ShardedState :=
  if key.length = 32 then s.shardMut 0 (fun t => t.insert derive a)
  else if key.length = 40 then s.insertIntoShard derive (keyShard key) a
  else s

def loadShardStorage (row : List UInt8 × List UInt8) : ShardedState :=
  if row.1.length = 64 ∧ row.2.length = 32 then
    s.shardMut 0 (fun t => t.setStorage ⟨beHash (row.1.take 32)⟩ (beHash (row.1.drop 32)) (beHash row.2))
  else if row.1.length = 72 ∧ row.2.length = 32 then
    s.shardMut (keyShard row.1) (fun t =>
      t.setStorage ⟨beHash ((row.1.drop 8).take 32)⟩ (beHash ((row.1.drop 8).drop 32)) (beHash row.2))
  else s

def loadShardStub (key : List UInt8) (stub : AccountStub) : ShardedState :=
  if key.length = 32 then s.shardMut 0 (fun t => t.insertStub stub)
  else if key.length = 40 then s.shardMut (keyShard key) (fun t => t.insertStub stub)
  else s

def loadMultiShard (shardIds : List Nat) : Except String ShardedState := do
  let s := (shardIds.filter (· ≠ 0)).foldl (fun s shard => s.shardMut shard (fun t => t)) (.fromStateTree .new)
  let s ← db.accounts.toList.foldlM (fun s row => (codec.readAccount row.2).map (loadShardAccount derive s row.1)) s
  let s := db.contractStorage.toList.foldl loadShardStorage s
  db.accountStubs.toList.foldlM (fun s row => (codec.readStub row.2).map (loadShardStub s row.1)) s

def loadShardedState : Except String ShardedState :=
  match db.stateMeta[metaShardIds]? with
  | some data => do
    let shardIds ← codec.readShardIds data
    db.loadMultiShard codec derive shardIds
  | none => (db.loadTree codec derive).map .fromStateTree

end Read

end StateDb

end AceChain.State
