import AceChain.Lib.Maps
import AceChain.State.StateTree

namespace AceChain.State

open Lib List

def addressBytes (a : Address) : List UInt8 := (leBytes 20 a.toNat).reverse

@[simp] theorem length_addressBytes (a : Address) : (addressBytes a).length = 20 := by simp [addressBytes]

theorem addressBytes_injective {a b : Address} (same : addressBytes a = addressBytes b) : a = b :=
  BitVec.eq_of_toNat_eq (leBytes_injective a.isLt b.isLt (reverse_injective same))

def optionBytes {α : Type} (tag : UInt8) (encode : α → List UInt8) (field : Option α) : List UInt8 :=
  match field with
  | some value => tag :: encode value
  | none => [0]

section

variable (sha : List UInt8 → Hash)

def keyBytes (key : TaggedPubkey) : List UInt8 := key.algorithm.tag :: key.bytes

def fingerprint (key : TaggedPubkey) : Hash := sha (keyBytes key)

structure HashedFields where
  idCom : AccountId
  balance : Nat
  nonce : Nat
  storageRoot : Hash
  xid : Option Hash
  xaddress : Option Hash
  evmAddress : Option Address
  tronAddress : Option Address
  solanaAddress : Option Hash
  btcAddress : Option (List UInt8)
  codeHash : Option Hash
  authFingerprint : Hash
  keyFingerprints : List Hash
  lastTouchedSlot : Nat
deriving DecidableEq

variable (a : Account)

/-- The keys enter as fingerprints, those beyond the primary one in sorted order. -/
def hashedFields : HashedFields where
  idCom := a.idCom
  balance := a.balance
  nonce := a.nonce
  storageRoot := a.storageRoot
  xid := a.xid
  xaddress := a.xaddress
  evmAddress := a.evmAddress
  tronAddress := a.tronAddress
  solanaAddress := a.solanaAddress
  btcAddress := a.btcAddress
  codeHash := a.codeHash
  authFingerprint := fingerprint sha a.authPubkey
  keyFingerprints := (a.authKeys.map (fingerprint sha)).insertionSort (· ≤ ·)
  lastTouchedSlot := a.lastTouchedSlot

variable (f : HashedFields)

def fixedBytes : List UInt8 :=
  hashBytes f.idCom.bytes ++ (leBytes 8 f.balance ++ (leBytes 8 f.nonce ++ hashBytes f.storageRoot))

def aliasBytes : List UInt8 :=
  optionBytes 0x10 hashBytes f.xid ++ (optionBytes 0x11 hashBytes f.xaddress ++
    (optionBytes 0x01 addressBytes f.evmAddress ++ (optionBytes 0x02 addressBytes f.tronAddress ++
      (optionBytes 0x03 hashBytes f.solanaAddress ++
        optionBytes 0x04 (fun script => leBytes 2 script.length ++ script) f.btcAddress))))

def extraKeyBytes : List UInt8 :=
  if f.keyFingerprints.isEmpty then []
  else 0x06 :: f.keyFingerprints.length.toUInt8 :: f.keyFingerprints.flatMap hashBytes

def fieldBytes : List UInt8 :=
  fixedBytes f ++ aliasBytes f ++ optionBytes 0x05 hashBytes f.codeHash ++ hashBytes f.authFingerprint ++
    extraKeyBytes f ++ leBytes 8 f.lastTouchedSlot

def Account.toHashBytes : List UInt8 := fieldBytes (hashedFields sha a)

variable (storage : Option Storage)

def storageBytes : List UInt8 :=
  match storage with
  | some storage => storage.toList.flatMap (fun entry => hashBytes entry.1 ++ hashBytes entry.2)
  | none => []

def Account.stubBytes : List UInt8 :=
  asciiBytes "ACE-STUB-V1" ++ a.toHashBytes sha ++ storageBytes storage

def Account.computeStubHash : Hash := sha (a.stubBytes sha storage)

end

structure HashedFields.Sized (f : HashedFields) : Prop where
  balance : f.balance < 2 ^ 64
  nonce : f.nonce < 2 ^ 64
  slot : f.lastTouchedSlot < 2 ^ 64
  script : ∀ script, f.btcAddress = some script → script.length < 2 ^ 16
  keys : f.keyFingerprints.length < 256

section

variable {f g : HashedFields}

theorem separates_hash (field : HashedFields → Hash) :
    Separates HashedFields.Sized (fun f => hashBytes (field f)) field :=
  .fixed (fun _ => length_hashBytes _) (fun _ _ _ _ same => hashBytes_injective same)

theorem separates_number {field : HashedFields → Nat} (small : ∀ f : HashedFields, f.Sized → field f < 2 ^ 64) :
    Separates HashedFields.Sized (fun f => leBytes 8 (field f)) field :=
  .fixed (fun _ => length_leBytes 8 _) (fun f g hf hg same => leBytes_injective (small f hf) (small g hg) same)

theorem separates_fixed : Separates HashedFields.Sized fixedBytes
    (fun f => (f.idCom.bytes, f.balance, f.nonce, f.storageRoot)) :=
  (separates_hash _).append
    ((separates_number (fun _ sized => sized.balance)).append
      ((separates_number (fun _ sized => sized.nonce)).append (separates_hash _)))

theorem separates_option {α : Type} {encode : α → List UInt8} {tag : UInt8} {width : Nat} (field : HashedFields → Option α)
    (present : tag ≠ 0) (length : ∀ a, (encode a).length = width) (injective : ∀ a b, encode a = encode b → a = b) :
    Separates HashedFields.Sized (fun f => optionBytes tag encode (field f)) field :=
  .tagged (P := fun _ => True) present (.fixed length (fun a b _ _ => injective a b)) (fun _ _ _ _ => trivial)

theorem separates_optionHash {tag : UInt8} (field : HashedFields → Option Hash) (present : tag ≠ 0) :
    Separates HashedFields.Sized (fun f => optionBytes tag hashBytes (field f)) field :=
  separates_option field present length_hashBytes (fun _ _ => hashBytes_injective)

theorem separates_optionAddress {tag : UInt8} (field : HashedFields → Option Address) (present : tag ≠ 0) :
    Separates HashedFields.Sized (fun f => optionBytes tag addressBytes (field f)) field :=
  separates_option field present length_addressBytes (fun _ _ => addressBytes_injective)

theorem separates_script : Separates HashedFields.Sized
    (fun f => optionBytes 0x04 (fun script => leBytes 2 script.length ++ script) f.btcAddress) HashedFields.btcAddress :=
  .tagged (by decide) Separates.lengthPrefixed (fun _ script sized found => sized.script script found)

theorem separates_alias : Separates HashedFields.Sized aliasBytes
    (fun f => (f.xid, f.xaddress, f.evmAddress, f.tronAddress, f.solanaAddress, f.btcAddress)) :=
  (separates_optionHash _ (by decide)).append ((separates_optionHash _ (by decide)).append
    ((separates_optionAddress _ (by decide)).append ((separates_optionAddress _ (by decide)).append
      ((separates_optionHash _ (by decide)).append separates_script))))

theorem separates_front : Separates HashedFields.Sized
    (fun f => fixedBytes f ++ aliasBytes f ++ optionBytes 0x05 hashBytes f.codeHash ++ hashBytes f.authFingerprint)
    (fun f => ((((f.idCom.bytes, f.balance, f.nonce, f.storageRoot),
      (f.xid, f.xaddress, f.evmAddress, f.tronAddress, f.solanaAddress, f.btcAddress)), f.codeHash), f.authFingerprint)) :=
  ((separates_fixed.append separates_alias).append (separates_optionHash _ (by decide))).append (separates_hash _)

def storageList (storage : Option Storage) : List (Hash × Hash) := (storage.map (·.toList)).getD []

variable (entries : List (Hash × Hash))

def entryBytes : List UInt8 :=
  entries.flatMap (fun entry => hashBytes entry.1 ++ hashBytes entry.2)

theorem storageBytes_eq (storage : Option Storage) : storageBytes storage = entryBytes (storageList storage) := by
  cases storage <;> rfl

theorem length_entryBytes : (entryBytes entries).length = 64 * entries.length :=
  length_flatMap_fixed (fun _ => by simp) entries

variable {entries entries' : List (Hash × Hash)}

theorem entryBytes_injective (same : entryBytes entries = entryBytes entries') :
    entries = entries' := by
  apply flatMap_fixed_injective (w := 64) (by decide) (fun _ => by simp) ?_ same
  intro entry entry' equal
  obtain ⟨key, value⟩ := append_inj equal (by simp)
  exact Prod.ext (hashBytes_injective key) (hashBytes_injective value)

theorem length_extraKeyBytes (some_ : f.keyFingerprints.isEmpty = false) :
    (extraKeyBytes f).length = 2 + 32 * f.keyFingerprints.length := by
  unfold extraKeyBytes
  rw [some_]
  simp only [Bool.false_eq_true, if_false, length_cons, length_flatMap_fixed length_hashBytes]
  omega

theorem extraKeyBytes_isEmpty
    (same : extraKeyBytes f ++ (leBytes 8 f.lastTouchedSlot ++ entryBytes entries) =
      extraKeyBytes g ++ (leBytes 8 g.lastTouchedSlot ++ entryBytes entries'))
    (none_ : f.keyFingerprints.isEmpty = true) : g.keyFingerprints.isEmpty = true := by
  cases some_ : g.keyFingerprints.isEmpty with
  | true => rfl
  | false =>
    have lengths := congrArg List.length same
    have empty : (extraKeyBytes f).length = 0 := by simp [extraKeyBytes, none_]
    simp only [length_append, length_extraKeyBytes some_, empty, length_leBytes, length_entryBytes] at lengths
    omega

theorem extraKeyBytes_injective (hf : f.Sized) (hg : g.Sized) {rest rest' : List UInt8}
    (same : extraKeyBytes f ++ rest = extraKeyBytes g ++ rest')
    (empty : f.keyFingerprints.isEmpty = g.keyFingerprints.isEmpty) :
    f.keyFingerprints = g.keyFingerprints ∧ rest = rest' := by
  cases some_ : f.keyFingerprints.isEmpty with
  | true =>
    have none_ := empty.symm.trans some_
    unfold extraKeyBytes at same
    rw [some_, none_] at same
    rw [List.isEmpty_iff.mp some_, List.isEmpty_iff.mp none_]
    exact ⟨rfl, same⟩
  | false =>
    have some' := empty.symm.trans some_
    unfold extraKeyBytes at same
    rw [some_, some'] at same
    obtain ⟨-, same⟩ := List.cons.inj same
    obtain ⟨count, same⟩ := List.cons.inj same
    have counts : f.keyFingerprints.length = g.keyFingerprints.length := by
      have numbers := congrArg UInt8.toNat count
      have := hf.keys
      have := hg.keys
      simp at numbers
      omega
    obtain ⟨front, back⟩ := append_inj same (by simp only [length_flatMap_fixed length_hashBytes, counts])
    exact ⟨flatMap_fixed_injective (by decide) length_hashBytes (fun _ _ => hashBytes_injective) front, back⟩

theorem fieldBytes_injective (hf : f.Sized) (hg : g.Sized)
    (same : fieldBytes f ++ entryBytes entries = fieldBytes g ++ entryBytes entries') : f = g ∧ entries = entries' := by
  unfold fieldBytes at same
  rw [append_assoc _ (extraKeyBytes f), append_assoc _ (extraKeyBytes g), append_assoc,
    append_assoc _ _ (entryBytes entries'), append_assoc (extraKeyBytes f),
    append_assoc (extraKeyBytes g)] at same
  obtain ⟨front, same⟩ := separates_front hf hg same
  have empty : f.keyFingerprints.isEmpty = g.keyFingerprints.isEmpty := by
    apply Bool.eq_iff_iff.mpr
    exact ⟨extraKeyBytes_isEmpty same, extraKeyBytes_isEmpty same.symm⟩
  obtain ⟨keys, same⟩ := extraKeyBytes_injective hf hg same empty
  obtain ⟨slot, same⟩ := append_inj same (by simp)
  have slots := leBytes_injective hf.slot hg.slot slot
  refine ⟨?_, entryBytes_injective same⟩
  obtain ⟨⟨_⟩, _⟩ := f
  simp_all

end

theorem storageList_eq (storage : Option Storage) : storageList storage = (storage.getD ∅).toList := by
  cases storage with
  | none => rfl
  | some storage => rfl

theorem lookup_of_storageList {storage storage' : Option Storage} (same : storageList storage = storageList storage')
    (slot : Hash) : (storage.getD ∅)[slot]? = (storage'.getD ∅)[slot]? := by
  rw [storageList_eq, storageList_eq] at same
  exact lookup_eq_of_toList same slot

theorem keyBytes_injective {key key' : TaggedPubkey} (same : keyBytes key = keyBytes key') : key = key' := by
  obtain ⟨algorithm, bytes⟩ := key
  obtain ⟨algorithm', bytes'⟩ := key'
  obtain ⟨tag, rfl⟩ := List.cons.inj same
  cases algorithm <;> cases algorithm' <;> first | rfl | cases tag

structure Account.Sized (a : Account) : Prop where
  balance : a.balance < 2 ^ 64
  nonce : a.nonce < 2 ^ 64
  slot : a.lastTouchedSlot < 2 ^ 64
  script : ∀ script, a.btcAddress = some script → script.length < 2 ^ 16
  keys : a.authKeys.length < 256

instance (a : Account) : Decidable a.Sized :=
  decidable_of_iff (a.balance < 2 ^ 64 ∧ a.nonce < 2 ^ 64 ∧ a.lastTouchedSlot < 2 ^ 64 ∧
      (∀ script ∈ a.btcAddress, script.length < 2 ^ 16) ∧ a.authKeys.length < 256)
    ⟨fun ⟨balance, nonce, slot, script, keys⟩ => ⟨balance, nonce, slot, fun bytes held => script bytes held, keys⟩,
      fun sized => ⟨sized.balance, sized.nonce, sized.slot, fun bytes held => sized.script bytes held, sized.keys⟩⟩

def Account.hashInputs (sha : List UInt8 → Hash) (a : Account) (storage : Option Storage) : Set (List UInt8) :=
  insert (a.stubBytes sha storage) {bytes | ∃ key ∈ a.allAuthKeys, keyBytes key = bytes}

structure Account.Twin (a b : Account) : Prop where
  rest : b = { a with code := b.code, authKeys := b.authKeys }
  keys : b.authKeys.Perm a.authKeys

/-- One version of an account carries on another: the same nonce, keys and storage. -/
structure Account.Continues (a : Account) (storage : Option Storage) (b : Account) (storage' : Option Storage) : Prop where
  nonce : b.nonce = a.nonce
  primary : b.authPubkey = a.authPubkey
  keys : b.authKeys.Perm a.authKeys
  storage : ∀ slot : Hash, (storage'.getD ∅)[slot]? = (storage.getD ∅)[slot]?

section

variable {sha : List UInt8 → Hash} {a b : Account} {storage storage' : Option Storage}

theorem Account.Sized.hashed (sha : List UInt8 → Hash) (sized : a.Sized) : (hashedFields sha a).Sized where
  balance := sized.balance
  nonce := sized.nonce
  slot := sized.slot
  script := sized.script
  keys := by
    change ((a.authKeys.map (fingerprint sha)).insertionSort (· ≤ ·)).length < 256
    rw [length_insertionSort, length_map]
    exact sized.keys

instance : Nonempty TaggedPubkey := ⟨.default⟩

theorem perm_of_fingerprints {keys keys' : List TaggedPubkey}
    (free : Set.InjOn sha {bytes | ∃ key, (key ∈ keys ∨ key ∈ keys') ∧ keyBytes key = bytes})
    (same : (keys.map (fingerprint sha)).insertionSort (· ≤ ·) = (keys'.map (fingerprint sha)).insertionSort (· ≤ ·)) :
    keys.Perm keys' := by
  have sorted : (keys.map (fingerprint sha)).Perm (keys'.map (fingerprint sha)) :=
    ((perm_insertionSort _ _).symm.trans (.of_eq same)).trans (perm_insertionSort _ _)
  have injective : Set.InjOn (fingerprint sha) {key | key ∈ keys ∨ key ∈ keys'} := by
    intro key hkey key' hkey' equal
    exact keyBytes_injective (free ⟨key, hkey, rfl⟩ ⟨key', hkey', rfl⟩ equal)
  -- a left inverse of the fingerprint on the keys at hand turns the fingerprints back
  have back := sorted.map (Function.invFunOn (fingerprint sha) {key | key ∈ keys ∨ key ∈ keys'})
  have undo : ∀ some_ : List TaggedPubkey, (∀ key ∈ some_, key ∈ keys ∨ key ∈ keys') →
      (some_.map (fingerprint sha)).map (Function.invFunOn (fingerprint sha) {key | key ∈ keys ∨ key ∈ keys'}) = some_ := by
    intro some_ inside
    rw [map_map]
    conv_rhs => rw [← map_id some_]
    apply map_congr_left
    intro key found
    exact injective.leftInvOn_invFunOn (inside key found)
  rwa [undo keys (fun _ => .inl), undo keys' (fun _ => .inr)] at back

theorem Account.Twin.hashedFields (twin : a.Twin b) : hashedFields sha b = hashedFields sha a := by
  have sorted : (b.authKeys.map (fingerprint sha)).insertionSort (· ≤ ·) =
      (a.authKeys.map (fingerprint sha)).insertionSort (· ≤ ·) :=
    (((perm_insertionSort _ _).trans (twin.keys.map _)).trans (perm_insertionSort _ _).symm).eq_of_pairwise
      (fun _ _ _ _ => BitVec.le_antisymm) (pairwise_insertionSort _ _) (pairwise_insertionSort _ _)
  have rest := twin.rest
  generalize b.code = code, b.authKeys = keys at rest sorted
  subst rest
  unfold State.hashedFields
  simp only [sorted]

theorem twin_of_stubBytes (ha : a.Sized) (hb : b.Sized)
    (free : Set.InjOn sha {bytes | ∃ key, (key ∈ b.allAuthKeys ∨ key ∈ a.allAuthKeys) ∧ keyBytes key = bytes})
    (same : b.stubBytes sha storage' = a.stubBytes sha storage) : a.Twin b ∧ storageList storage' = storageList storage := by
  unfold Account.stubBytes at same
  rw [append_assoc, append_assoc, storageBytes_eq, storageBytes_eq] at same
  obtain ⟨fields, entries⟩ := fieldBytes_injective (hb.hashed sha) (ha.hashed sha) (append_cancel_left same)
  have primary : b.authPubkey = a.authPubkey := by
    have equal : fingerprint sha b.authPubkey = fingerprint sha a.authPubkey := congrArg HashedFields.authFingerprint fields
    exact keyBytes_injective (free ⟨_, .inl mem_cons_self, rfl⟩ ⟨_, .inr mem_cons_self, rfl⟩ equal)
  refine ⟨⟨?_, perm_of_fingerprints (free.mono ?_) (congrArg HashedFields.keyFingerprints fields)⟩, entries⟩
  · obtain ⟨⟩ := a
    obtain ⟨⟩ := b
    simp only [hashedFields, HashedFields.mk.injEq] at fields
    simp_all
  · rintro _ ⟨key, found | found, rfl⟩
    · exact ⟨key, .inl (mem_cons_of_mem _ found), rfl⟩
    · exact ⟨key, .inr (mem_cons_of_mem _ found), rfl⟩

theorem keys_subset_hashInputs : {bytes | ∃ key, (key ∈ b.allAuthKeys ∨ key ∈ a.allAuthKeys) ∧ keyBytes key = bytes} ⊆
    a.hashInputs sha storage ∪ b.hashInputs sha storage' := by
  rintro _ ⟨key, found | found, rfl⟩
  · exact .inr (.inr ⟨key, found, rfl⟩)
  · exact .inl (.inr ⟨key, found, rfl⟩)

theorem continues_of_stubHash (ha : a.Sized) (hb : b.Sized)
    (free : Set.InjOn sha (a.hashInputs sha storage ∪ b.hashInputs sha storage'))
    (same : b.computeStubHash sha storage' = a.computeStubHash sha storage) : a.Continues storage b storage' := by
  have bytes := free (.inr (Set.mem_insert _ _)) (.inl (Set.mem_insert _ _)) same
  obtain ⟨twin, entries⟩ := twin_of_stubBytes ha hb (free.mono keys_subset_hashInputs) bytes
  have nonce := congrArg Account.nonce twin.rest
  have primary := congrArg Account.authPubkey twin.rest
  exact ⟨nonce, primary, twin.keys, fun slot => lookup_of_storageList entries slot⟩

end

end AceChain.State
