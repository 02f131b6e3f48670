import AceChain.Lib.Maps
import AceChain.State.ShardedState

namespace AceChain.State

open Lib Std

structure StateSnapshot where
  accounts : TreeMap AccountId Account
  stubs : TreeMap AccountId AccountStub
  contractStorage : TreeMap AccountId Storage
  xidIndex : Hash → Option AccountId
  evmIndex : Address → Option AccountId
  tronIndex : Address → Option AccountId
  solanaIndex : Hash → Option AccountId
  btcIndex : List UInt8 → Option AccountId
  xaddressIndex : Hash → Option AccountId
  hfiIntents : TreeMap Hash (List UInt8)
  hfiRecipients : TreeMap Hash (List UInt8)
  hfiIdcomIndex : TreeMap Hash Hash
  zkReplayRegistry : TreeMap Hash Hash

namespace StateTree

def snapshot (t : StateTree) : StateSnapshot :=
  ⟨t.accounts, t.stubs, t.contractStorage, t.xidIndex, t.evmIndex, t.tronIndex, t.solanaIndex, t.btcIndex, t.xaddressIndex,
    t.hfiIntents, t.hfiRecipients, t.hfiIdcomIndex, t.zkReplayRegistry⟩

def rollback (t : StateTree) (s : StateSnapshot) : StateTree :=
  { t with
    accounts := s.accounts
    stubs := s.stubs
    contractStorage := s.contractStorage
    xidIndex := s.xidIndex
    evmIndex := s.evmIndex
    tronIndex := s.tronIndex
    solanaIndex := s.solanaIndex
    btcIndex := s.btcIndex
    xaddressIndex := s.xaddressIndex
    hfiIntents := s.hfiIntents
    hfiRecipients := s.hfiRecipients
    hfiIdcomIndex := s.hfiIdcomIndex
    zkReplayRegistry := s.zkReplayRegistry }

end StateTree

/-- The default shard, which is always there, stands apart as in the state itself. -/
structure ShardedStateSnapshot where
  defaultShard : StateSnapshot
  otherShards : TreeMap Nat StateSnapshot
  shardIndex : AccountId → Option Nat

namespace ShardedState

variable (s before : ShardedState)

def snapshot : ShardedStateSnapshot :=
  ⟨s.defaultShard.snapshot, s.otherShards.map (fun _ tree => tree.snapshot), s.shardIndex⟩

def restoreShard (shards : TreeMap Nat StateTree) (id : Nat) (snapshot : StateSnapshot) : TreeMap Nat StateTree :=
  shards.insert id ((shards[id]?.getD StateTree.new).rollback snapshot)

def rollback (snapshot : ShardedStateSnapshot) : ShardedState where
  defaultShard := s.defaultShard.rollback snapshot.defaultShard
  otherShards := snapshot.otherShards.foldl restoreShard
    (s.otherShards.filter (fun id _ => snapshot.otherShards.contains id))
  shardIndex := snapshot.shardIndex

structure Same : Prop where
  defaultShard : s.defaultShard = before.defaultShard
  otherShards : s.otherShards.Equiv before.otherShards
  shardIndex : s.shardIndex = before.shardIndex

theorem Same.refl : Same s s := ⟨rfl, .rfl, rfl⟩

theorem same_rollback_snapshot : Same (s.rollback before.snapshot) before where
  defaultShard := rfl
  shardIndex := rfl
  otherShards := by
    apply Std.TreeMap.Equiv.of_forall_constGet?_eq
    intro id
    have restored := lookup_foldl_insert before.snapshot.otherShards (fun _ snapshot => StateTree.new.rollback snapshot)
      (s.otherShards.filter (fun id _ => before.snapshot.otherShards.contains id)) id
    have kept : before.snapshot.otherShards[id]? = before.otherShards[id]?.map StateTree.snapshot :=
      Std.TreeMap.getElem?_map
    refine Eq.trans restored ?_
    rw [kept]
    cases there : before.otherShards[id]? with
    | some tree => rfl
    | none =>
      have gone : before.snapshot.otherShards.contains id = false := by
        rw [Std.TreeMap.contains_eq_isSome_getElem?, kept, there]
        rfl
      simp [gone]

end ShardedState

end AceChain.State
