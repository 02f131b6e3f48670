import AceChain.State.StateTree

namespace AceChain.State

open Function

/-- The shards by id. Shard `0` is always there; a snapshot is a copy of the whole value. -/
structure ShardedState where
  defaultShard : StateTree
  otherShards : Std.TreeMap Nat StateTree
  shardIndex : AccountId → Option Nat

namespace ShardedState

def numVirtualShards : Nat := 1024

/-- The first two bytes of the id select one of the virtual shards. -/
def deterministicShard (id : AccountId) : Nat := id.bytes.toNat / 2 ^ 240 % numVirtualShards

def fromStateTree (tree : StateTree) : ShardedState := ⟨tree, ∅, fun _ => none⟩

variable (s : ShardedState)

def shard (id : Nat) : Option StateTree :=
  if id = 0 then some s.defaultShard else s.otherShards[id]?

def setShard (id : Nat) (tree : StateTree) : ShardedState :=
  if id = 0 then { s with defaultShard := tree } else { s with otherShards := s.otherShards.insert id tree }

def targetShard (id : AccountId) : Nat :=
  match s.shardIndex id with
  | some shard => shard
  | none => deterministicShard id

def getIn (shard : Nat) (id : AccountId) : Option Account :=
  match s.shard shard with
  | some tree => tree.get id
  | none => none

def homeShard (id : AccountId) : Option Nat :=
  let target := s.targetShard id
  if (s.getIn target id).isSome then some target
  else if target ≠ 0 ∧ (s.getIn 0 id).isSome then some 0
  else none

def get (id : AccountId) : Option Account :=
  match s.homeShard id with
  | some shard => s.getIn shard id
  | none => none

def modify (id : AccountId) (f : Account → Account) : ShardedState :=
  match s.homeShard id with
  | some shard =>
    match s.shard shard with
    | some tree => s.setShard shard (tree.modify id f)
    | none => s
  | none => s

section

variable (derive : Derivations) (s : ShardedState)

def removeFrom (shard : Nat) (id : AccountId) : ShardedState :=
  match s.shard shard with
  | some tree => s.setShard shard (tree.remove derive id)
  | none => s

def insert (a : Account) : ShardedState :=
  let id := a.idCom
  let target := s.targetShard id
  let s :=
    match s.shardIndex id with
    | some old => if old ≠ target then s.removeFrom derive old id else s
    | none => if target ≠ 0 then s.removeFrom derive 0 id else s
  let s := s.setShard target (((s.shard target).getD StateTree.new).insert derive a)
  { s with shardIndex := update s.shardIndex id (some target) }

/-- An old copy is looked for under the index only. -/
def insertIntoShard (shard : Nat) (a : Account) : ShardedState :=
  let id := a.idCom
  let s :=
    match s.shardIndex id with
    | some old => if old ≠ shard then s.removeFrom derive old id else s
    | none => s
  let s := s.setShard shard (((s.shard shard).getD StateTree.new).insert derive a)
  { s with shardIndex := update s.shardIndex id (some shard) }

def shardIds : List Nat := 0 :: s.otherShards.keys

def findShard (p : StateTree → Bool) : Option Nat :=
  s.shardIds.find? (fun shard => ((s.shard shard).map p).getD false)

variable (id : AccountId)

def unindexed : ShardedState :=
  { s with shardIndex := update s.shardIndex id none }

def remove : ShardedState :=
  match s.findShard (·.contains id) with
  | some shard => (s.removeFrom derive shard id).unindexed id
  | none => s

def insertStub (stub : AccountStub) : ShardedState :=
  { s with defaultShard := s.defaultShard.insertStub stub }

def expireAccount (currentSlot : Nat) : ShardedState :=
  match s.findShard (·.contains id) with
  | some shard =>
    match s.shard shard with
    | some tree => (s.setShard shard (tree.expireAccount derive id currentSlot)).unindexed id
    | none => s
  | none => s

def resurrectAccount (proof : ResurrectionProof) (newSlot : Nat) : Except String ShardedState :=
  match s.findShard (·.isStubbed proof.account.idCom) with
  | some shard =>
    match s.shard shard with
    | some tree =>
      match tree.resurrectAccount derive proof newSlot with
      | .ok tree =>
        let s := s.setShard shard tree
        .ok { s with shardIndex := update s.shardIndex proof.account.idCom (some shard) }
      | .error text => .error text
    | none => .error "account is not expired in any shard"
  | none => .error "account is not expired in any shard"

def sweepExpired (currentSlot expiryPeriod : Nat) : ShardedState :=
  { s with
    defaultShard := s.defaultShard.sweepExpired derive currentSlot expiryPeriod
    otherShards := s.otherShards.map (fun _ tree => tree.sweepExpired derive currentSlot expiryPeriod) }

end

end ShardedState

end AceChain.State
