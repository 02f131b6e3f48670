import AceChain.Lib.Merkle
import AceChain.State.AccountHash
import AceChain.State.Tiers

namespace AceChain.State

open Lib Lib.Merkle StateTree

def intentDomain : List UInt8 := asciiBytes "hfi:intent:v1:"

def recipientDomain : List UInt8 := asciiBytes "hfi:recipient:v1:"

def replayDomain : List UInt8 := asciiBytes "zkace:replay:v1:"

def stubDomain : List UInt8 := asciiBytes "ACE-STUB-V1"

/-- One leaf for every id of the two tiers; a hot account takes the place of a stub of its id. -/
def tierLeaves {β : Type} (stubLeaf : AccountId → AccountStub → β) (accountLeaf : AccountId → Account → β) (t : StateTree) :
    Std.TreeMap AccountId β :=
  t.accounts.foldl (fun leaves id a => leaves.insert id (accountLeaf id a))
    (t.stubs.foldl (fun leaves id stub => leaves.insert id (stubLeaf id stub)) ∅)

section

variable (sha : List UInt8 → Hash)

def hashPair (left right : Hash) : Hash := sha (hashBytes left ++ hashBytes right)

namespace StateTree

variable (t : StateTree)

def tierHashes : Std.TreeMap AccountId Hash :=
  tierLeaves (fun _ stub => stub.hash) (fun id a => sha (a.toHashBytes sha ++ storageBytes t.contractStorage[id]?)) t

def leafHashes : List Hash :=
  (t.tierHashes sha).toList.map Prod.snd ++
    t.hfiIntents.toList.map (fun entry => sha (intentDomain ++ hashBytes entry.1 ++ entry.2)) ++
    t.hfiRecipients.toList.map (fun entry => sha (recipientDomain ++ hashBytes entry.1 ++ entry.2)) ++
    t.zkReplayRegistry.toList.map (fun entry => sha (replayDomain ++ hashBytes entry.1 ++ hashBytes entry.2))

def computeRoot : Hash :=
  if t.accounts.isEmpty && t.stubs.isEmpty && t.hfiIntents.isEmpty && t.hfiRecipients.isEmpty &&
    t.zkReplayRegistry.isEmpty then
    sha (asciiBytes "ACE-EMPTY-STATE-V1")
  else
    let hashes := t.leafHashes sha
    (collapse (hashPair sha) hashes.length hashes).headD 0

end StateTree

open StateTree

end

theorem lookup_tierLeaves {β : Type} (stubLeaf : AccountId → AccountStub → β) (accountLeaf : AccountId → Account → β)
    (t : StateTree) (id : AccountId) :
    (tierLeaves stubLeaf accountLeaf t)[id]? =
      match t.get id with
      | some a => some (accountLeaf id a)
      | none => t.stubs[id]?.map (stubLeaf id) := by
  unfold tierLeaves StateTree.get
  rw [lookup_foldl_insert]
  cases t.accounts[id]? with
  | some a => rfl
  | none =>
    rw [lookup_foldl_insert]
    cases t.stubs[id]? with
    | some stub => rfl
    | none => rfl

theorem isEmpty_tierLeaves {β : Type} (stubLeaf : AccountId → AccountStub → β) (accountLeaf : AccountId → Account → β)
    (t : StateTree) :
    (tierLeaves stubLeaf accountLeaf t).isEmpty = true ↔ t.accounts.isEmpty = true ∧ t.stubs.isEmpty = true := by
  simp only [isEmpty_iff_lookup, lookup_tierLeaves]
  constructor
  · intro none_
    have cold : ∀ id : AccountId, t.accounts[id]? = none := by
      intro id
      have empty := none_ id
      cases held : t.accounts[id]? with
      | none => rfl
      | some a =>
        simp only [StateTree.get, held] at empty
        cases empty
    refine ⟨cold, fun id => ?_⟩
    have empty := none_ id
    simp only [StateTree.get, cold id] at empty
    exact Option.map_eq_none_iff.mp empty
  · rintro ⟨cold, clear⟩ id
    simp only [StateTree.get, cold id, clear id, Option.map_none]

theorem tierLeaves_map {β γ : Type} (hash : β → γ) (stubLeaf : AccountId → AccountStub → β)
    (accountLeaf : AccountId → Account → β) (stubHash : AccountId → AccountStub → γ) (t : StateTree)
    (stubs : ∀ (id : AccountId) stub, t.stubs[id]? = some stub → stubHash id stub = hash (stubLeaf id stub)) :
    (tierLeaves stubHash (fun id a => hash (accountLeaf id a)) t).toList.map Prod.snd =
      ((tierLeaves stubLeaf accountLeaf t).toList.map Prod.snd).map hash := by
  have lists : (tierLeaves stubHash (fun id a => hash (accountLeaf id a)) t).toList =
      ((tierLeaves stubLeaf accountLeaf t).map (fun _ leaf => hash leaf)).toList := by
    apply toList_eq_of_lookup
    intro id
    rw [Std.TreeMap.getElem?_map, lookup_tierLeaves, lookup_tierLeaves]
    cases t.get id with
    | some a => rfl
    | none =>
      cases found : t.stubs[id]? with
      | none => rfl
      | some stub => exact congrArg some (stubs id stub found)
  rw [lists, Std.TreeMap.toList_map, List.map_map, List.map_map]
  rfl

inductive LeafKind where
  | account
  | stub
  | intent
  | recipient
  | replay
deriving DecidableEq

/-- The leaf of a hot account alone starts with no domain. -/
def LeafKind.domain : LeafKind → List UInt8
  | account => []
  | stub => stubDomain
  | intent => intentDomain
  | recipient => recipientDomain
  | replay => replayDomain

theorem LeafKind.domain_injective {k k' : LeafKind} (same : k.domain = k'.domain) : k = k' := by
  revert same
  cases k <;> cases k' <;> decide

section

variable (sha : List UInt8 → Hash)

theorem leafHashes_eq_nil_iff (t : StateTree) : t.leafHashes sha = [] ↔
    (t.accounts.isEmpty && t.stubs.isEmpty && t.hfiIntents.isEmpty && t.hfiRecipients.isEmpty &&
      t.zkReplayRegistry.isEmpty) = true := by
  simp only [leafHashes, List.append_eq_nil_iff, List.map_eq_nil_iff]
  simp only [tierHashes, ← List.isEmpty_iff, Std.TreeMap.isEmpty_toList, isEmpty_tierLeaves, Bool.and_eq_true]

variable {t : StateTree}

theorem computeRoot_empty (none_ : t.leafHashes sha = []) :
    t.computeRoot sha = sha (asciiBytes "ACE-EMPTY-STATE-V1") := by
  unfold computeRoot
  rw [if_pos ((leafHashes_eq_nil_iff sha t).mp none_)]

theorem computeRoot_congr {t u : StateTree} (same : t.leafHashes sha = u.leafHashes sha) :
    t.computeRoot sha = u.computeRoot sha := by
  by_cases none_ : t.leafHashes sha = []
  · rw [computeRoot_empty sha none_, computeRoot_empty sha (same ▸ none_)]
  · unfold computeRoot
    rw [if_neg (fun empty => none_ ((leafHashes_eq_nil_iff sha t).mpr empty)),
      if_neg (fun empty => none_ (same.trans ((leafHashes_eq_nil_iff sha u).mpr empty))), same]

theorem lookup_tierHashes (t : StateTree) (id : AccountId) : (t.tierHashes sha)[id]? =
    match t.get id with
    | some a => some (sha (a.toHashBytes sha ++ storageBytes t.contractStorage[id]?))
    | none => t.stubs[id]?.map (fun stub => stub.hash) :=
  lookup_tierLeaves _ _ t id

theorem computeRoot_of_tierHashes {t u : StateTree}
    (tiers : ∀ id : AccountId, (t.tierHashes sha)[id]? = (u.tierHashes sha)[id]?) (intents : t.hfiIntents = u.hfiIntents)
    (recipients : t.hfiRecipients = u.hfiRecipients) (replays : t.zkReplayRegistry = u.zkReplayRegistry) :
    t.computeRoot sha = u.computeRoot sha := by
  apply computeRoot_congr
  unfold leafHashes
  rw [toList_eq_of_lookup tiers, intents, recipients, replays]

theorem computeRoot_setStorage_cold {id : AccountId} (cold : t.contains id = false)
    (slot value : Hash) : (t.setStorage id slot value).computeRoot sha = t.computeRoot sha := by
  refine computeRoot_of_tierHashes sha (fun other => ?_) rfl rfl rfl
  rw [lookup_tierHashes, lookup_tierHashes]
  have hot : (t.setStorage id slot value).get other = t.get other := rfl
  rw [hot, stubs]
  cases held : t.get other with
  | none => rfl
  | some a =>
    have differ : other ≠ id := by
      rintro rfl
      unfold contains at cold
      rw [held] at cold
      cases cold
    unfold setStorage
    rw [lookup_insert, if_neg differ]

theorem rises_computeRoot (some_ : t.leafHashes sha ≠ []) :
    Relation.ReflTransGen (Rises (hashPair sha)) (t.leafHashes sha) [t.computeRoot sha] := by
  have rises : Relation.ReflTransGen (Rises (hashPair sha)) (t.leafHashes sha)
      (collapse (hashPair sha) (t.leafHashes sha).length (t.leafHashes sha)) := rises_collapse _ _
  have one : (collapse (hashPair sha) (t.leafHashes sha).length (t.leafHashes sha)).length = 1 :=
    length_collapse some_ (Nat.le_succ _)
  obtain ⟨root, shape⟩ := List.length_eq_one_iff.mp one
  unfold computeRoot
  rw [if_neg (fun empty => some_ ((leafHashes_eq_nil_iff sha t).mpr empty))]
  dsimp only
  rw [shape] at rises ⊢
  exact rises

end

inductive Leaf where
  | account (fields : HashedFields) (entries : List (Hash × Hash))
  | stub (fields : HashedFields) (entries : List (Hash × Hash))
  | intent (id : Hash) (value : List UInt8)
  | recipient (id : Hash) (value : List UInt8)
  | replay (rpCom idcom : Hash)
deriving DecidableEq

namespace Leaf

def kind : Leaf → LeafKind
  | account _ _ => .account
  | stub _ _ => .stub
  | intent _ _ => .intent
  | recipient _ _ => .recipient
  | replay _ _ => .replay

def domain (l : Leaf) : List UInt8 := l.kind.domain

def body : Leaf → List UInt8
  | account fields entries => fieldBytes fields ++ entryBytes entries
  | stub fields entries => fieldBytes fields ++ entryBytes entries
  | intent id value => hashBytes id ++ value
  | recipient id value => hashBytes id ++ value
  | replay rpCom idcom => hashBytes rpCom ++ hashBytes idcom

def bytes (l : Leaf) : List UInt8 := l.domain ++ l.body

def domains : List (List UInt8) := [stubDomain, intentDomain, recipientDomain, replayDomain]

/-- The leaf is read back from its bytes: the fields fit, no account id starts with a domain, and no leaf is as long
as a pair of hashes. -/
def Regular : Leaf → Prop
  | account fields _ => fields.Sized ∧ ∀ d ∈ domains, ¬ d <+: hashBytes fields.idCom.bytes
  | stub fields _ => fields.Sized
  | intent _ value => value.length ≠ 18
  | recipient _ value => value.length ≠ 15
  | replay _ _ => True

variable {l l' : Leaf}

theorem domains_apart : ∀ d ∈ domains, ∀ d' ∈ domains, d <+: d' → d = d' := by decide

theorem domains_short : ∀ d ∈ domains, d.length ≤ 32 := by decide

theorem domain_or_account (l : Leaf) : l.domain ∈ domains ∨ ∃ fields entries, l = account fields entries := by
  cases l with
  | account fields entries => exact .inr ⟨fields, entries, rfl⟩
  | _ => left; simp [domain, kind, LeafKind.domain, domains]

theorem domain_prefix (l : Leaf) : l.domain <+: l.bytes := List.prefix_append _ _

theorem hashBytes_prefix_fieldBytes (fields : HashedFields) : hashBytes fields.idCom.bytes <+: fieldBytes fields := by
  exact List.prefix_append _ _

theorem account_ne {fields : HashedFields} {entries : List (Hash × Hash)} (regular : (account fields entries).Regular)
    (tagged : l.domain ∈ domains) : (account fields entries).bytes ≠ l.bytes := by
  intro same
  have front : l.domain <+: (account fields entries).bytes := by
    rw [same]
    exact l.domain_prefix
  have id : hashBytes fields.idCom.bytes <+: (account fields entries).bytes := by
    have inside : hashBytes fields.idCom.bytes <+: fieldBytes fields := hashBytes_prefix_fieldBytes fields
    exact inside.trans (List.prefix_append _ _)
  have short : l.domain.length ≤ (hashBytes fields.idCom.bytes).length := by
    exact domains_short _ tagged
  exact regular.2 _ tagged (List.prefix_of_prefix_length_le front id short)

theorem domain_eq (regular : l.Regular) (regular' : l'.Regular) (same : l.bytes = l'.bytes) : l.domain = l'.domain := by
  rcases domain_or_account l with tagged | ⟨fields, entries, rfl⟩
  · rcases domain_or_account l' with tagged' | ⟨fields, entries, rfl⟩
    · have front : l'.domain <+: l.bytes := same ▸ l'.domain_prefix
      rcases List.prefix_or_prefix_of_prefix l.domain_prefix front with first | second
      · exact domains_apart _ tagged _ tagged' first
      · exact (domains_apart _ tagged' _ tagged second).symm
    · exact absurd same.symm (account_ne regular' tagged)
  · rcases domain_or_account l' with tagged' | ⟨fields', entries', rfl⟩
    · exact absurd same (account_ne regular tagged')
    · rfl

theorem bytes_injective (regular : l.Regular) (regular' : l'.Regular) (same : l.bytes = l'.bytes) : l = l' := by
  have domains := domain_eq regular regular' same
  have kinds := LeafKind.domain_injective domains
  have bodies : l.body = l'.body := by
    unfold bytes at same
    rw [domains] at same
    exact List.append_cancel_left same
  cases l with
  | account fields entries =>
    cases l' with
    | account fields' entries' =>
      obtain ⟨rfl, rfl⟩ := fieldBytes_injective regular.1 regular'.1 bodies
      rfl
    | _ => cases kinds
  | stub fields entries =>
    cases l' with
    | stub fields' entries' =>
      obtain ⟨rfl, rfl⟩ := fieldBytes_injective regular regular' bodies
      rfl
    | _ => cases kinds
  | intent id value =>
    cases l' with
    | intent id' value' =>
      obtain ⟨ids, rfl⟩ := List.append_inj bodies (by simp)
      rw [hashBytes_injective ids]
    | _ => cases kinds
  | recipient id value =>
    cases l' with
    | recipient id' value' =>
      obtain ⟨ids, rfl⟩ := List.append_inj bodies (by simp)
      rw [hashBytes_injective ids]
    | _ => cases kinds
  | replay rpCom idcom =>
    cases l' with
    | replay rpCom' idcom' =>
      obtain ⟨first, second⟩ := List.append_inj bodies (by simp)
      rw [hashBytes_injective first, hashBytes_injective second]
    | _ => cases kinds

theorem length_fieldBytes (fields : HashedFields) : 80 ≤ (fieldBytes fields).length := by
  unfold fieldBytes fixedBytes
  simp only [List.length_append, length_hashBytes, length_leBytes]
  omega

theorem length_bytes (regular : l.Regular) : l.bytes.length ≠ 64 ∧ 18 < l.bytes.length := by
  unfold bytes
  cases l with
  | account fields entries =>
    have long := length_fieldBytes fields
    simp only [domain, kind, LeafKind.domain, body, List.length_nil, List.length_append]
    omega
  | stub fields entries =>
    have long := length_fieldBytes fields
    simp only [domain, kind, LeafKind.domain, body, List.length_append]
    omega
  | intent id value =>
    have tag : intentDomain.length = 14 := by decide
    have short : value.length ≠ 18 := regular
    simp only [domain, kind, LeafKind.domain, body, tag, List.length_append, length_hashBytes]
    omega
  | recipient id value =>
    have tag : recipientDomain.length = 17 := by decide
    have short : value.length ≠ 15 := regular
    simp only [domain, kind, LeafKind.domain, body, tag, List.length_append, length_hashBytes]
    omega
  | replay rpCom idcom =>
    have tag : replayDomain.length = 16 := by decide
    simp only [domain, kind, LeafKind.domain, body, tag, List.length_append, length_hashBytes]
    omega

def tierId : Leaf → AccountId
  | account fields _ => fields.idCom
  | stub fields _ => fields.idCom
  | _ => .zero

def tier? : Leaf → Option Leaf
  | account fields entries => some (account fields entries)
  | stub fields entries => some (stub fields entries)
  | _ => none

def intent? : Leaf → Option (Hash × List UInt8)
  | intent id value => some (id, value)
  | _ => none

def recipient? : Leaf → Option (Hash × List UInt8)
  | recipient id value => some (id, value)
  | _ => none

def replay? : Leaf → Option (Hash × Hash)
  | replay rpCom idcom => some (rpCom, idcom)
  | _ => none

end Leaf

end AceChain.State
