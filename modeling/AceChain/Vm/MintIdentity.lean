import AceChain.Vm.Programs
import AceChain.Vm.TokenLedger

namespace AceChain.Vm

open AceChain.Runtime Engine State Lib SmallLedger StateTree

inductive TokenOperation where
  | call (c : TokenCall)
  | registerTokenAccount (tokenAccount mint ownerSolPubkey ownerIdcom : Hash)
  | ensureRegisteredTokenAccount (tokenAccount mint ownerSolPubkey ownerIdcom : Hash)
  | registerRuntimeErc20MappingForExistingMint (mint : Hash)
deriving DecidableEq

namespace TokenSlots

variable {slots : TokenSlots} {derive : Derivations} {t : StateTree} {slot mint : Hash}

variable (derive)

theorem createMint_refused (erc20Address : Hash → Address) (decimals : UInt8) (authority : Hash)
    (there : slots.word t (slots.mintSlot mint) ≠ 0) :
    slots.createMint derive erc20Address t mint decimals authority =
      (.error "mint already exists", ensureAccount derive t slots.program) := by
  unfold createMint
  rw [if_pos (by rwa [word_ensure])]

theorem word_mintToOwner {owner : AccountId} (apart : slots.mintSlot mint ≠ slots.balanceSlot mint owner) (caller : AccountId)
    (amount : Nat) : slots.word (slots.mintToOwner derive t mint owner amount caller).2 (slots.mintSlot mint) =
        slots.word t (slots.mintSlot mint) ∨
      caller.bytes = slots.word t (slots.authoritySlot mint) ∧
        ∃ supply, slots.word (slots.mintToOwner derive t mint owner amount caller).2 (slots.mintSlot mint) =
          withSupply (slots.word t (slots.mintSlot mint)) supply := by
  unfold mintToOwner
  split
  · exact .inl rfl
  dsimp only
  split
  · exact .inl (word_ensure _)
  split
  · exact .inl (word_ensure _)
  rename_i authorised
  rw [word_ensure, not_not] at authorised
  split
  · exact .inl (word_ensure _)
  rename_i supply _
  right
  refine ⟨authorised, supply, ?_⟩
  split
  · rw [word_setStorage, if_pos rfl, word_ensure]
  · rw [word_setStorage, if_neg apart, word_setStorage, if_pos rfl, word_ensure]

theorem decimals_withSupply (word : Hash) (supply : Nat) :
    (hashBytes (withSupply word supply)).getD 8 0 = (hashBytes word).getD 8 0 := by
  have whole : (leBytes 8 supply ++ (hashBytes word).drop 8).length = 32 := by simp
  unfold withSupply
  rw [hashBytes_beHash whole, List.getD_eq_getElem?_getD, List.getElem?_append_right (by simp)]
  simp [List.getD_eq_getElem?_getD]

def SameWord (slots : TokenSlots) (slot : Hash) (t t' : StateTree) : Prop := slots.word t' slot = slots.word t slot

instance : IsPreorder StateTree (SameWord slots slot) where
  refl _ := rfl
  trans _ _ _ first second := Eq.trans second first

end TokenSlots

open TokenSlots

open TokenSlots Handler

namespace Programs

variable (p : Programs)

def registerRuntimeErc20MappingForExistingMint (t : StateTree) (mint : Hash) : Option StateChange × StateTree :=
  let slot := p.tokens.contractSlot (p.spl.runtimeErc20AddressForMint mint)
  let oldValue := p.tokens.word t slot
  if oldValue = mint then (none, t)
  else (some (.storageChange p.tokens.program slot oldValue mint), t.setStorage p.tokens.program slot mint)

def operate (t : StateTree) : TokenOperation → StateTree
  | .call c => p.tokens.callStep p.derive p.spl.runtimeErc20AddressForMint t c
  | .registerTokenAccount tokenAccount mint ownerSolPubkey ownerIdcom =>
    (p.registerTokenAccount tokenAccount mint ownerSolPubkey ownerIdcom t).2
  | .ensureRegisteredTokenAccount tokenAccount mint ownerSolPubkey ownerIdcom =>
    (p.ensureRegisteredTokenAccount tokenAccount mint ownerSolPubkey ownerIdcom t).2
  | .registerRuntimeErc20MappingForExistingMint mint => (p.registerRuntimeErc20MappingForExistingMint t mint).2

def accountSlots (tokenAccount : Hash) : List Hash :=
  [p.spl.accountMintSlot tokenAccount, p.spl.accountOwnerIdcomSlot tokenAccount, p.spl.accountOwnerSolSlot tokenAccount]

/-- The words an operation may write, but for the mint's own two where it is for this mint. -/
def footprint (mint : Hash) : TokenOperation → List Hash
  | .call (.createMint m _ _) => (if m = mint then [] else [p.tokens.mintSlot m, p.tokens.authoritySlot m]) ++
    [p.tokens.contractSlot (p.spl.runtimeErc20AddressForMint m)]
  | .call (.mintToOwner m owner _ _) => (if m = mint then [] else [p.tokens.mintSlot m]) ++ [p.tokens.balanceSlot m owner]
  | .call (.transferBetweenOwners m sender recipient _) => [p.tokens.balanceSlot m sender, p.tokens.balanceSlot m recipient]
  | .call (.setAllowance m owner spender _) => [p.tokens.allowanceSlot m owner spender]
  | .call (.transferFrom m spender owner recipient _) =>
    [p.tokens.balanceSlot m owner, p.tokens.balanceSlot m recipient, p.tokens.allowanceSlot m owner spender]
  | .registerTokenAccount tokenAccount _ _ _ => p.accountSlots tokenAccount
  | .ensureRegisteredTokenAccount tokenAccount _ _ _ => p.accountSlots tokenAccount
  | .registerRuntimeErc20MappingForExistingMint m => [p.tokens.contractSlot (p.spl.runtimeErc20AddressForMint m)]

/-- The mint has two words, and no operation in play writes another word under the hash of either. -/
structure Alone (inPlay : Set TokenOperation) (mint : Hash) : Prop where
  two : p.tokens.authoritySlot mint ≠ p.tokens.mintSlot mint
  others : ∀ op ∈ inPlay, ∀ slot ∈ p.footprint mint op, p.tokens.mintSlot mint ≠ slot ∧ p.tokens.authoritySlot mint ≠ slot

/-- The mint stands as it was created, its id is taken, and only its authority adds to the supply. -/
structure MintStands (inPlay : Set TokenOperation) (mint : Hash) (decimals : UInt8) (authority : Hash)
    (t : StateTree) : Prop where
  described : ∃ supply, p.tokens.getMintMeta t mint = some ⟨supply, decimals, authority⟩
  taken : ∀ d a, (p.tokens.createMint p.derive p.spl.runtimeErc20AddressForMint t mint d a).1.isOk = false
  issuer : ∀ op ∈ inPlay, p.tokens.supplyOf t mint < p.tokens.supplyOf (p.operate t op) mint →
    ∃ owner amount, op = .call (.mintToOwner mint owner amount ⟨authority⟩)

section

variable {p} {inPlay : Set TokenOperation} {t : StateTree} {slot mint authority : Hash} {decimals : UInt8}

theorem registerTokenAccount_sameWord {tokenAccount : Hash} (apart : ∀ s ∈ p.accountSlots tokenAccount, slot ≠ s)
    (mint ownerSolPubkey ownerIdcom : Hash) :
    Keeps (SameWord p.tokens slot) (p.registerTokenAccount tokenAccount mint ownerSolPubkey ownerIdcom) := by
  have filled : Keeps (SameWord p.tokens slot) (p.fillSlots [(p.spl.accountMintSlot tokenAccount, mint),
      (p.spl.accountOwnerIdcomSlot tokenAccount, ownerIdcom), (p.spl.accountOwnerSolSlot tokenAccount, ownerSolPubkey)]) := by
    intro t
    simp only [accountSlots, List.mem_cons, List.not_mem_nil, or_false, forall_eq_or_imp, forall_eq] at apart
    exact word_fill_apart (by simp [apart])
  have ensured : Keeps (SameWord p.tokens slot) (write (fun t => ensureAccount p.derive t p.tokens.program) : ProgramM Unit) :=
    fun t => word_ensure slot
  exact ensured.bind fun _ => .bind (.demand _ _) fun _ => .bind (.read _) fun _ => .bind (.require _ _) fun _ => filled

theorem ensureRegisteredTokenAccount_sameWord {tokenAccount : Hash} (apart : ∀ s ∈ p.accountSlots tokenAccount, slot ≠ s)
    (mint ownerSolPubkey ownerIdcom : Hash) :
    Keeps (SameWord p.tokens slot) (p.ensureRegisteredTokenAccount tokenAccount mint ownerSolPubkey ownerIdcom) := by
  refine .bind (.read _) fun existing => ?_
  cases existing with
  | none => exact registerTokenAccount_sameWord apart mint ownerSolPubkey ownerIdcom
  | some found => exact .bind (.require _ _) fun _ => .pure _

theorem word_registerRuntimeErc20Mapping {other : Hash}
    (apart : slot ≠ p.tokens.contractSlot (p.spl.runtimeErc20AddressForMint other)) :
    p.tokens.word (p.registerRuntimeErc20MappingForExistingMint t other).2 slot = p.tokens.word t slot := by
  unfold registerRuntimeErc20MappingForExistingMint
  dsimp only
  split
  · rfl
  · rw [word_setStorage, if_neg apart]

theorem word_operate (there : p.tokens.word t (p.tokens.mintSlot mint) ≠ 0) {op : TokenOperation}
    (apart : ∀ s ∈ p.footprint mint op, slot ≠ s)
    (noIssue : ∀ owner amount caller, op ≠ .call (.mintToOwner mint owner amount caller)) :
    p.tokens.word (p.operate t op) slot = p.tokens.word t slot := by
  cases op with
  | call c =>
    cases c with
    | createMint m decimals authority =>
      change p.tokens.word (p.tokens.createMint p.derive _ t m decimals authority).2 slot = _
      by_cases same : m = mint
      · subst same
        rw [createMint_refused p.derive _ decimals authority there, word_ensure]
      · apply (p.tokens.createMint_ledgered p.derive _ m decimals authority).word
        simpa [footprint, same] using apart
    | mintToOwner m owner amount caller =>
      have differ : m ≠ mint := by
        rintro rfl
        exact noIssue owner amount caller rfl
      apply (p.tokens.mintToOwner_ledgered p.derive m owner amount.toNat caller).word
      simpa [footprint, differ] using apart
    | transferBetweenOwners m sender recipient amount =>
      apply (p.tokens.transferBetweenOwners_ledgered p.derive m sender recipient amount.toNat).word
      simpa [footprint] using apart
    | setAllowance m owner spender amount =>
      exact (p.tokens.setAllowance_ledgered p.derive m owner spender amount.toNat).word (apart _ List.mem_cons_self)
    | transferFrom m spender owner recipient amount =>
      apply (p.tokens.transferFrom_ledgered p.derive m spender owner recipient amount.toNat).word
      simpa [footprint, and_assoc] using apart
  | registerTokenAccount tokenAccount m ownerSolPubkey ownerIdcom =>
    exact registerTokenAccount_sameWord apart m ownerSolPubkey ownerIdcom t
  | ensureRegisteredTokenAccount tokenAccount m ownerSolPubkey ownerIdcom =>
    exact ensureRegisteredTokenAccount_sameWord apart m ownerSolPubkey ownerIdcom t
  | registerRuntimeErc20MappingForExistingMint m => exact word_registerRuntimeErc20Mapping (apart _ List.mem_cons_self)

theorem Alone.operate_cases (alone : p.Alone inPlay mint) (there : p.tokens.word t (p.tokens.mintSlot mint) ≠ 0)
    {op : TokenOperation} (used : op ∈ inPlay) :
    p.tokens.word (p.operate t op) (p.tokens.authoritySlot mint) = p.tokens.word t (p.tokens.authoritySlot mint) ∧
      (p.tokens.word (p.operate t op) (p.tokens.mintSlot mint) = p.tokens.word t (p.tokens.mintSlot mint) ∨
        (∃ owner amount, op = .call (.mintToOwner mint owner amount ⟨p.tokens.word t (p.tokens.authoritySlot mint)⟩)) ∧
          ∃ supply, p.tokens.word (p.operate t op) (p.tokens.mintSlot mint) =
            withSupply (p.tokens.word t (p.tokens.mintSlot mint)) supply) := by
  have apart := alone.others op used
  by_cases issue : ∃ owner amount caller, op = .call (.mintToOwner mint owner amount caller)
  · obtain ⟨owner, amount, caller, rfl⟩ := issue
    obtain ⟨balance, balance'⟩ := apart (p.tokens.balanceSlot mint owner) (by simp [footprint])
    constructor
    · apply (p.tokens.mintToOwner_ledgered p.derive mint owner amount.toNat caller).word
      exact not_or.mpr ⟨alone.two, balance'⟩
    · rcases word_mintToOwner (t := t) p.derive balance caller amount.toNat with kept | ⟨authorised, issued⟩
      · exact .inl kept
      · exact .inr ⟨⟨owner, amount, by rw [← authorised]⟩, issued⟩
  · have noIssue : ∀ owner amount caller, op ≠ .call (.mintToOwner mint owner amount caller) :=
      fun owner amount caller same => issue ⟨owner, amount, caller, same⟩
    exact ⟨word_operate there (fun s member => (apart s member).2) noIssue,
      .inl (word_operate there (fun s member => (apart s member).1) noIssue)⟩

structure Described (p : Programs) (mint : Hash) (decimals : UInt8) (authority : Hash) (t : StateTree) : Prop where
  decimals : (hashBytes (p.tokens.word t (p.tokens.mintSlot mint))).getD 8 0 = decimals
  authority : p.tokens.word t (p.tokens.authoritySlot mint) = authority

section

variable (described : p.Described mint decimals authority t)

include described

theorem Described.there (some_ : decimals ≠ 0) :
    p.tokens.word t (p.tokens.mintSlot mint) ≠ 0 := by
  intro missing
  have byte := described.decimals
  rw [missing] at byte
  exact some_ (byte.symm.trans (by decide))

theorem Described.operate (some_ : decimals ≠ 0) (alone : p.Alone inPlay mint)
    {op : TokenOperation} (used : op ∈ inPlay) : p.Described mint decimals authority (p.operate t op) := by
  obtain ⟨kept, moved⟩ := alone.operate_cases (described.there some_) used
  refine ⟨?_, kept.trans described.authority⟩
  rcases moved with same | ⟨-, supply, issued⟩
  · rw [same]
    exact described.decimals
  · rw [issued, decimals_withSupply]
    exact described.decimals

theorem Described.run (some_ : decimals ≠ 0) (alone : p.Alone inPlay mint) {ops : List TokenOperation}
    (used : ∀ op ∈ ops, op ∈ inPlay) : p.Described mint decimals authority (Lib.run p.operate t ops) := by
  induction ops generalizing t with
  | nil => exact described
  | cons op ops ih =>
    rw [List.forall_mem_cons] at used
    exact ih (described.operate some_ alone used.1) used.2

theorem Described.stands (some_ : decimals ≠ 0) (alone : p.Alone inPlay mint) :
    p.MintStands inPlay mint decimals authority t := by
  have there := described.there some_
  constructor
  · use wordU64 (p.tokens.word t (p.tokens.mintSlot mint))
    unfold getMintMeta
    rw [if_neg there, described.decimals, described.authority]
  · intro d a
    rw [createMint_refused p.derive _ d a there]
    rfl
  · intro op used grown
    obtain ⟨-, same | ⟨issue, -⟩⟩ := alone.operate_cases there used
    · rw [supplyOf_eq, supplyOf_eq, same] at grown
      exact absurd grown (Nat.lt_irrefl _)
    · rwa [described.authority] at issue

end

end

theorem Alone.createMint_words {p : Programs} {inPlay : Set TokenOperation} {t : StateTree} {mint : Hash}
    (alone : p.Alone inPlay mint) {decimals : UInt8} {authority : Hash}
    (used : TokenOperation.call (.createMint mint decimals authority) ∈ inPlay)
    (created : (p.tokens.createMint p.derive p.spl.runtimeErc20AddressForMint t mint decimals authority).1.isOk = true) :
    p.tokens.word (p.tokens.createMint p.derive p.spl.runtimeErc20AddressForMint t mint decimals authority).2
        (p.tokens.mintSlot mint) = wordOf (List.replicate 8 0 ++ [decimals]) ∧
      p.tokens.word (p.tokens.createMint p.derive p.spl.runtimeErc20AddressForMint t mint decimals authority).2
        (p.tokens.authoritySlot mint) = authority := by
  obtain ⟨contract, contract'⟩ := alone.others _ used (p.tokens.contractSlot (p.spl.runtimeErc20AddressForMint mint))
    (by simp [footprint])
  unfold TokenSlots.createMint at created ⊢
  dsimp only at created ⊢
  split at created
  · cases created
  rename_i free
  rw [if_neg free]
  simp only [List.foldl_cons, List.foldl_nil]
  constructor
  · rw [word_setStorage, if_neg contract, word_setStorage, if_neg alone.two.symm, word_setStorage, if_pos rfl]
  · rw [word_setStorage, if_neg contract', word_setStorage, if_pos rfl]

/-- A created mint stands after every later sequence of token operations, unless it has no decimals: its word is then the
empty one, so that it was never there. -/
theorem mint_stands_iff (p : Programs) (inPlay : Set TokenOperation) (t : StateTree) (mint : Hash) (decimals : UInt8)
    (authority : Hash) (alone : p.Alone inPlay mint)
    (used : TokenOperation.call (.createMint mint decimals authority) ∈ inPlay)
    (created : (p.tokens.createMint p.derive p.spl.runtimeErc20AddressForMint t mint decimals authority).1.isOk = true) :
    (∀ ops : List TokenOperation, (∀ op ∈ ops, op ∈ inPlay) → p.MintStands inPlay mint decimals authority (Lib.run p.operate
      (p.tokens.createMint p.derive p.spl.runtimeErc20AddressForMint t mint decimals authority).2 ops)) ↔ decimals ≠ 0 := by
  obtain ⟨supply, named⟩ := alone.createMint_words used created
  constructor
  · rintro stands rfl
    obtain ⟨issued, described⟩ := (stands [] (by simp)).described
    have missing : wordOf (List.replicate 8 0 ++ [0]) = 0 := by decide
    unfold getMintMeta at described
    rw [Lib.run_nil, supply, if_pos missing] at described
    cases described
  · intro some_ ops used
    have described : p.Described mint decimals authority
        (p.tokens.createMint p.derive p.spl.runtimeErc20AddressForMint t mint decimals authority).2 := by
      refine ⟨?_, named⟩
      rw [supply, hashBytes_wordOf (by simp)]
      simp [List.getD_eq_getElem?_getD]
    exact (described.run some_ alone used).stands some_ alone

end Programs

namespace SmallMints

def tokens : TokenSlots where
  program := ⟨999⟩
  mintSlot mint := if mint = 5 then 1 else 3
  authoritySlot mint := if mint = 5 then 2 else 4
  balanceSlot _ owner := if owner = ⟨1⟩ then 5 else 6
  allowanceSlot _ _ _ := 7
  contractSlot _ := 8

def programs : Programs where
  derive := derive
  tokens := tokens
  spl :=
    { accountMintSlot _ := 9
      accountOwnerIdcomSlot _ := 10
      accountOwnerSolSlot _ := 11
      legacyIdcomSolana key := key
      deriveAssociatedTokenAddress owner mint := owner + mint
      runtimeErc20AddressForMint := erc20Address }

def created (decimals : UInt8) : StateTree := programs.operate new (.call (.createMint 5 decimals 9))

def later : List TokenOperation := [.call (.mintToOwner 5 ⟨1⟩ 100 ⟨9⟩), .call (.createMint 5 2 8),
    .registerTokenAccount 7 5 1 1]

def inPlay : Set TokenOperation := {op | op ∈ .call (.createMint 5 6 9) :: later}

theorem alone : programs.Alone inPlay 5 where
  two := by decide
  others op used := by
    simp only [inPlay, later, Set.mem_ofPred_eq, List.mem_cons, List.not_mem_nil, or_false] at used
    rcases used with rfl | rfl | rfl | rfl <;> simp [Programs.footprint, Programs.accountSlots, programs, tokens]

theorem decimals_keep_mint : (6 : UInt8) ≠ 0 ∧
    programs.MintStands inPlay 5 6 9 (Lib.run programs.operate (created 6) later) :=
  ⟨by decide, (Programs.mint_stands_iff programs inPlay new 5 6 9 alone List.mem_cons_self (by decide +kernel)).mpr
    (by decide) _
    fun _ => List.mem_cons_of_mem _⟩

/-- Without decimals the id is free at once: account 8 takes it with two decimals and issues a hundred units. -/
theorem mint_taken_over :
    (tokens.createMint programs.derive erc20Address new 5 0 9).1.isOk = true ∧
    tokens.getMintMeta (created 0) 5 = none ∧
    tokens.getMintMeta (Lib.run programs.operate (created 0)
      [.call (.createMint 5 2 8), .call (.mintToOwner 5 ⟨1⟩ 100 ⟨8⟩)]) 5 = some ⟨100, 2, 8⟩ := by
  decide +kernel

end SmallMints

end AceChain.Vm
