import AceChain.Vm.TokenRuntime

namespace AceChain.Vm

open AceChain.Runtime Engine State Lib

theorem wordU64_withSupply (word : Hash) {supply : Nat} (small : supply < 2 ^ 64) :
    wordU64 (TokenSlots.withSupply word supply) = supply := by
  have whole : (leBytes 8 supply ++ (hashBytes word).drop 8).length = 32 := by simp
  unfold wordU64 TokenSlots.withSupply slice
  rw [hashBytes_beHash whole, List.drop_zero, List.take_append_of_le_length (by simp), List.take_of_length_le (by simp),
    leNat_leBytes]
  exact Nat.mod_eq_of_lt small

theorem wordU64_decimals (decimals : UInt8) : wordU64 (wordOf (List.replicate 8 0 ++ [decimals])) = 0 := by
  unfold wordU64 slice
  rw [hashBytes_wordOf (by simp), List.drop_zero, List.append_assoc, List.take_append_of_le_length (by simp),
    List.take_of_length_le (by simp)]
  decide

/-- A word of the token program's storage, by what it stands for. -/
inductive TokenCell where
  | mint (mint : Hash)
  | authority (mint : Hash)
  | balance (mint : Hash) (owner : AccountId)
  | allowance (mint : Hash) (owner spender : AccountId)
  | contract (address : Address)
deriving DecidableEq

inductive TokenCall where
  | createMint (mint : Hash) (decimals : UInt8) (authority : Hash)
  | mintToOwner (mint : Hash) (owner : AccountId) (amount : UInt64) (caller : AccountId)
  | transferBetweenOwners (mint : Hash) (sender recipient : AccountId) (amount : UInt64)
  | setAllowance (mint : Hash) (owner spender : AccountId) (amount : UInt64)
  | transferFrom (mint : Hash) (spender owner recipient : AccountId) (amount : UInt64)
deriving DecidableEq

namespace TokenCall

def mint : TokenCall → Hash
  | createMint mint _ _ | mintToOwner mint _ _ _ | transferBetweenOwners mint _ _ _ | setAllowance mint _ _ _
  | transferFrom mint _ _ _ _ => mint

def owners : TokenCall → List AccountId
  | createMint _ _ _ => []
  | mintToOwner _ owner _ _ => [owner]
  | transferBetweenOwners _ sender recipient _ => [sender, recipient]
  | setAllowance _ owner spender _ => [owner, spender]
  | transferFrom _ spender owner recipient _ => [spender, owner, recipient]

end TokenCall

open TokenCall

structure TokenScope where
  mints : Finset Hash
  owners : Finset AccountId

namespace TokenSlots

def locate (slots : TokenSlots) : TokenCell → Hash
  | .mint mint => slots.mintSlot mint
  | .authority mint => slots.authoritySlot mint
  | .balance mint owner => slots.balanceSlot mint owner
  | .allowance mint owner spender => slots.allowanceSlot mint owner spender
  | .contract address => slots.contractSlot address

section

variable (slots : TokenSlots) (derive : Derivations) (erc20Address : Hash → Address)

def call (t : StateTree) : TokenCall → Outcome String (List StateChange)
  | .createMint mint decimals authority => slots.createMint derive erc20Address t mint decimals authority
  | .mintToOwner mint owner amount caller => slots.mintToOwner derive t mint owner amount.toNat caller
  | .transferBetweenOwners mint sender recipient amount =>
    slots.transferBetweenOwners derive t mint sender recipient amount.toNat
  | .setAllowance mint owner spender amount => slots.setAllowance derive t mint owner spender amount.toNat
  | .transferFrom mint spender owner recipient amount =>
    slots.transferFrom derive t mint spender owner recipient amount.toNat

def callStep (t : StateTree) (c : TokenCall) : StateTree := (slots.call derive erc20Address t c).2

def supplyOf (t : StateTree) (mint : Hash) : Nat := ((slots.getMintMeta t mint).map (·.supply)).getD 0

variable (scope : TokenScope)

def cells : Finset TokenCell :=
  scope.mints.image .mint ∪ scope.mints.image .authority ∪ scope.mints.image (fun mint => .contract (erc20Address mint)) ∪
    (scope.mints ×ˢ scope.owners).image (fun entry => .balance entry.1 entry.2) ∪
    (scope.mints ×ˢ scope.owners ×ˢ scope.owners).image (fun entry => .allowance entry.1 entry.2.1 entry.2.2)

def CollisionFree : Prop :=
  ∀ c ∈ cells erc20Address scope, ∀ c' ∈ cells erc20Address scope, slots.locate c = slots.locate c' → c = c'

instance (scope : TokenScope) : Decidable (slots.CollisionFree erc20Address scope) :=
  inferInstanceAs (Decidable (∀ c ∈ cells erc20Address scope, _))

def Conserved (t : StateTree) : Prop :=
  ∀ mint ∈ scope.mints, slots.supplyOf t mint = ∑ owner ∈ scope.owners, slots.tokenBalance t mint owner

end

variable {slots : TokenSlots} {derive : Derivations} {erc20Address : Hash → Address} {scope : TokenScope}
  {t t' : StateTree} {mint : Hash}

theorem supplyOf_eq (t : StateTree) (mint : Hash) : slots.supplyOf t mint = wordU64 (slots.word t (slots.mintSlot mint)) := by
  unfold supplyOf getMintMeta
  by_cases missing : slots.word t (slots.mintSlot mint) = 0
  · rw [if_pos missing, missing, wordU64_zero]
    rfl
  · rw [if_neg missing]
    rfl

section Cells

variable {m : Hash} {owner spender : AccountId}

section

variable (inside : m ∈ scope.mints)

include inside

theorem mint_mem : TokenCell.mint m ∈ cells erc20Address scope := by
  simp only [cells, Finset.mem_union, Finset.mem_image]
  exact .inl (.inl (.inl (.inl ⟨m, inside, rfl⟩)))

theorem authority_mem : TokenCell.authority m ∈ cells erc20Address scope := by
  simp only [cells, Finset.mem_union, Finset.mem_image]
  exact .inl (.inl (.inl (.inr ⟨m, inside, rfl⟩)))

theorem contract_mem : TokenCell.contract (erc20Address m) ∈ cells erc20Address scope := by
  simp only [cells, Finset.mem_union, Finset.mem_image]
  exact .inl (.inl (.inr ⟨m, inside, rfl⟩))

theorem balance_mem (known : owner ∈ scope.owners) :
    TokenCell.balance m owner ∈ cells erc20Address scope := by
  simp only [cells, Finset.mem_union, Finset.mem_image]
  exact .inl (.inr ⟨(m, owner), Finset.mem_product.mpr ⟨inside, known⟩, rfl⟩)

theorem allowance_mem (known : owner ∈ scope.owners) (spends : spender ∈ scope.owners) :
    TokenCell.allowance m owner spender ∈ cells erc20Address scope := by
  simp only [cells, Finset.mem_union, Finset.mem_image]
  exact .inr ⟨(m, owner, spender), Finset.mem_product.mpr ⟨inside, Finset.mem_product.mpr ⟨known, spends⟩⟩, rfl⟩

end

end Cells

theorem CollisionFree.slot_iff (free : slots.CollisionFree erc20Address scope) {c c' : TokenCell}
    (first : c ∈ cells erc20Address scope) (second : c' ∈ cells erc20Address scope) :
    slots.locate c = slots.locate c' ↔ c = c' :=
  ⟨free c first c' second, congrArg _⟩

theorem CollisionFree.word_set (free : slots.CollisionFree erc20Address scope) {c c' : TokenCell}
    (first : c ∈ cells erc20Address scope) (second : c' ∈ cells erc20Address scope) (value : Hash) :
    slots.word (t.setStorage slots.program (slots.locate c) value) (slots.locate c') =
      if c' = c then value else slots.word t (slots.locate c') := by
  rw [word_setStorage]
  simp only [free.slot_iff second first]

theorem Conserved.of_words (conserved : slots.Conserved scope t)
    (mints : ∀ mint ∈ scope.mints, wordU64 (slots.word t' (slots.mintSlot mint)) =
      wordU64 (slots.word t (slots.mintSlot mint)))
    (balances : ∀ mint ∈ scope.mints, ∀ owner ∈ scope.owners,
      slots.tokenBalance t' mint owner = slots.tokenBalance t mint owner) :
    slots.Conserved scope t' := by
  intro mint inside
  rw [supplyOf_eq, mints mint inside, ← supplyOf_eq, conserved mint inside]
  exact (Finset.sum_congr rfl (balances mint inside)).symm

theorem Conserved.of_storage (conserved : slots.Conserved scope t) (same : t'.contractStorage = t.contractStorage) :
    slots.Conserved scope t' := by
  apply conserved.of_words
  · intro mint _
    rw [word_of_storage same]
  · intro mint _ owner _
    unfold tokenBalance
    rw [word_of_storage same]

theorem Conserved.balance_le (conserved : slots.Conserved scope t) (inside : mint ∈ scope.mints) {owner : AccountId}
    (known : owner ∈ scope.owners) : slots.tokenBalance t mint owner ≤ slots.supplyOf t mint := by
  rw [conserved mint inside]
  exact Finset.single_le_sum (fun _ _ => Nat.zero_le _) known

/-- An error leaves the storage as it was, a success conserves. -/
def Sound (slots : TokenSlots) (scope : TokenScope) (t : StateTree) (outcome : Outcome String (List StateChange)) : Prop :=
  slots.Conserved scope outcome.2 ∧ (outcome.1.isOk = false → outcome.2.contractStorage = t.contractStorage)

theorem Sound.still {outcome : Outcome String (List StateChange)} (conserved : slots.Conserved scope t)
    (same : outcome.2.contractStorage = t.contractStorage) : slots.Sound scope t outcome :=
  ⟨conserved.of_storage same, fun _ => same⟩

def put (slots : TokenSlots) (t : StateTree) (c : TokenCell) (value : Hash) : StateTree :=
  t.setStorage slots.program (slots.locate c) value

section Put

variable (free : slots.CollisionFree erc20Address scope) {c : TokenCell} {owner : AccountId} {value : Hash}

include free

theorem supplyOf_put (inside : mint ∈ scope.mints) (written : c ∈ cells erc20Address scope) :
    slots.supplyOf (slots.put t c value) mint = if TokenCell.mint mint = c then wordU64 value else slots.supplyOf t mint := by
  rw [supplyOf_eq, supplyOf_eq]
  have word := free.word_set (t := t) written (mint_mem inside) value
  unfold put
  rw [show slots.mintSlot mint = slots.locate (.mint mint) from rfl, word]
  split <;> rfl

theorem tokenBalance_put (inside : mint ∈ scope.mints) (known : owner ∈ scope.owners)
    (written : c ∈ cells erc20Address scope) :
    slots.tokenBalance (slots.put t c value) mint owner =
      if TokenCell.balance mint owner = c then wordU64 value else slots.tokenBalance t mint owner := by
  have word := free.word_set (t := t) written (balance_mem inside known) value
  unfold tokenBalance put
  rw [show slots.balanceSlot mint owner = slots.locate (.balance mint owner) from rfl, word]
  split <;> rfl

variable (value) in
theorem Conserved.put_other (conserved : slots.Conserved scope t) (written : c ∈ cells erc20Address scope)
    (noMint : ∀ mint, TokenCell.mint mint ≠ c) (noBalance : ∀ mint owner, TokenCell.balance mint owner ≠ c) :
    slots.Conserved scope (slots.put t c value) := by
  apply conserved.of_words
  · intro mint inside
    rw [← supplyOf_eq, ← supplyOf_eq, supplyOf_put free inside written, if_neg (noMint mint)]
  · intro mint inside owner known
    rw [tokenBalance_put free inside known written, if_neg (noBalance mint owner)]

variable (value) in
theorem sum_put_balance (inside : mint ∈ scope.mints) (known : owner ∈ scope.owners) :
    (∑ o ∈ scope.owners, slots.tokenBalance (slots.put t (.balance mint owner) value) mint o) +
        slots.tokenBalance t mint owner =
      (∑ o ∈ scope.owners, slots.tokenBalance t mint o) + wordU64 value := by
  have updated := sum_update (fun o => slots.tokenBalance t mint o) owner (wordU64 value) known
  have written : ∑ o ∈ scope.owners, slots.tokenBalance (slots.put t (.balance mint owner) value) mint o =
      ∑ o ∈ scope.owners, Function.update (fun o => slots.tokenBalance t mint o) owner (wordU64 value) o := by
    apply Finset.sum_congr rfl
    intro o member
    rw [tokenBalance_put free inside member (balance_mem inside known), Function.update_apply]
    simp only [TokenCell.balance.injEq, true_and]
  rw [written]
  exact updated

theorem sum_put_balance_ne {other : Hash} (differ : other ≠ mint) (inside : other ∈ scope.mints) (inside' : mint ∈ scope.mints)
    (known : owner ∈ scope.owners) :
    ∑ o ∈ scope.owners, slots.tokenBalance (slots.put t (.balance mint owner) value) other o =
      ∑ o ∈ scope.owners, slots.tokenBalance t other o := by
  apply Finset.sum_congr rfl
  intro o member
  rw [tokenBalance_put free inside member (balance_mem inside' known), if_neg]
  intro same
  cases same
  exact differ rfl

theorem sum_put_mint (inside : mint ∈ scope.mints) {other : Hash} (inside' : other ∈ scope.mints) :
    ∑ o ∈ scope.owners, slots.tokenBalance (slots.put t (.mint other) value) mint o =
      ∑ o ∈ scope.owners, slots.tokenBalance t mint o := by
  apply Finset.sum_congr rfl
  intro o member
  rw [tokenBalance_put free inside member (mint_mem inside'), if_neg (by simp)]

end Put

section Calls

variable (free : slots.CollisionFree erc20Address scope) (conserved : slots.Conserved scope t) (inside : mint ∈ scope.mints)

include free conserved inside

theorem createMint_sound (decimals : UInt8) (authority : Hash) :
    slots.Sound scope t (slots.createMint derive erc20Address t mint decimals authority) := by
  unfold createMint
  by_cases exists_ : slots.word (ensureAccount derive t slots.program) (slots.mintSlot mint) ≠ 0
  · rw [if_pos exists_]
    exact .still conserved (storage_ensureAccount derive t slots.program)
  rw [if_neg exists_]
  rw [word_ensure, not_not] at exists_
  refine ⟨?_, fun failed => by cases failed⟩
  have ensured := conserved.of_storage (storage_ensureAccount derive t slots.program)
  have minted : slots.Conserved scope (slots.put (ensureAccount derive t slots.program) (.mint mint)
      (wordOf (List.replicate 8 0 ++ [decimals]))) := by
    -- the supply of a new mint is what it was: nothing
    intro other inside'
    rw [sum_put_mint free inside' inside, ← ensured other inside', supplyOf_put free inside' (mint_mem inside)]
    split
    · rename_i same
      cases same
      rw [wordU64_decimals, supplyOf_eq, word_ensure, exists_, wordU64_zero]
    · rfl
  have authorised := minted.put_other free authority (authority_mem inside) (by simp) (by simp)
  have named := authorised.put_other free mint (contract_mem inside) (by simp) (by simp)
  exact named

theorem mintToOwner_sound {owner : AccountId} (known : owner ∈ scope.owners) (amount : Nat) (caller : AccountId) :
    slots.Sound scope t (slots.mintToOwner derive t mint owner amount caller) := by
  have same := storage_ensureAccount derive t slots.program
  have ensured := conserved.of_storage same
  unfold mintToOwner
  split
  · exact .still conserved rfl
  dsimp only
  split
  · exact .still conserved same
  split
  · exact .still conserved same
  cases sum : u64CheckedAdd (wordU64 (slots.word (ensureAccount derive t slots.program) (slots.mintSlot mint))) amount with
  | none => exact .still conserved same
  | some newSupply =>
    dsimp only
    generalize ensureAccount derive t slots.program = s at ensured sum ⊢
    have added := u64CheckedAdd_eq sum
    have fits := u64CheckedAdd_lt sum
    have held : slots.tokenBalance s mint owner ≤ slots.supplyOf s mint := ensured.balance_le inside known
    rw [supplyOf_eq] at held
    generalize minted : slots.put s (.mint mint) (withSupply (slots.word s (slots.mintSlot mint)) newSupply) = s'
    have unchanged : slots.tokenBalance s' mint owner = slots.tokenBalance s mint owner := by
      rw [← minted, tokenBalance_put free inside known (mint_mem inside), if_neg (by simp)]
    -- the balance is at most the old supply, so that it has room for what the supply has room for
    have room : u64CheckedAdd (wordU64 (slots.word s' (slots.balanceSlot mint owner))) amount =
        some (slots.tokenBalance s mint owner + amount) := by
      rw [← unchanged]
      apply if_pos
      change slots.tokenBalance s' mint owner + amount ≤ u64Max
      unfold u64Max
      omega
    have target : s.setStorage slots.program (slots.mintSlot mint)
        (withSupply (slots.word s (slots.mintSlot mint)) newSupply) = s' := minted
    rw [target, room]
    refine ⟨?_, fun failed => by cases failed⟩
    intro other inside'
    change slots.supplyOf (slots.put s' (.balance mint owner) _) other =
      ∑ o ∈ scope.owners, slots.tokenBalance (slots.put s' (.balance mint owner) _) other o
    rw [supplyOf_put free inside' (balance_mem inside known), if_neg (by simp), ← minted,
      supplyOf_put free inside' (mint_mem inside)]
    by_cases same' : other = mint
    · subst same'
      rw [if_pos rfl, wordU64_withSupply _ fits]
      have total := sum_put_balance (t := s') free (u64Word (slots.tokenBalance s other owner + amount)) inside known
      have before := ensured other inside
      rw [supplyOf_eq] at before
      rw [wordU64_u64Word (by omega), unchanged, ← minted, sum_put_mint free inside inside] at total
      omega
    · rw [if_neg (fun same => same' (TokenCell.mint.inj same)),
        sum_put_balance_ne free same' inside' inside known, sum_put_mint free inside' inside]
      exact ensured other inside'

variable (derive) in
theorem transferBetweenOwners_sound {sender recipient : AccountId} (sends : sender ∈ scope.owners)
    (receives : recipient ∈ scope.owners) (amount : Nat) :
    slots.Sound scope t (slots.transferBetweenOwners derive t mint sender recipient amount) := by
  have same := storage_ensureAccount derive t slots.program
  have ensured := conserved.of_storage same
  unfold transferBetweenOwners
  split
  · exact .still conserved rfl
  dsimp only
  split
  · exact .still conserved same
  split
  · exact .still conserved same
  rename_i enough
  split
  · exact .still conserved same
  rename_i differ
  generalize ensureAccount derive t slots.program = s at same ensured enough ⊢
  cases sum : u64CheckedAdd (slots.tokenBalance s mint recipient) amount with
  | none => exact .still conserved same
  | some credited =>
    refine ⟨?_, fun failed => by cases failed⟩
    have added := u64CheckedAdd_eq sum
    have fits := u64CheckedAdd_lt sum
    have held := wordU64_lt (slots.word s (slots.balanceSlot mint sender))
    change slots.tokenBalance s mint sender < 2 ^ 64 at held
    generalize debited : slots.put s (.balance mint sender) (u64Word (slots.tokenBalance s mint sender - amount)) = s'
    intro other inside'
    have state : (slots.write s [(slots.balanceSlot mint sender, slots.tokenBalance s mint sender - amount),
        (slots.balanceSlot mint recipient, credited)]).2 = slots.put s' (.balance mint recipient) (u64Word credited) := by
      rw [← debited]
      rfl
    rw [state, supplyOf_put free inside' (balance_mem inside receives), if_neg (by simp), ← debited,
      supplyOf_put free inside' (balance_mem inside sends), if_neg (by simp), debited]
    by_cases same' : other = mint
    · subst same'
      have first := sum_put_balance (t := s) free (u64Word (slots.tokenBalance s other sender - amount)) inside
        sends
      have second := sum_put_balance (t := s') free (u64Word credited) inside receives
      have unchanged : slots.tokenBalance s' other recipient = slots.tokenBalance s other recipient := by
        rw [← debited, tokenBalance_put free inside receives (balance_mem inside sends), if_neg]
        intro equal
        cases equal
        exact differ rfl
      have before := ensured other inside
      rw [debited, wordU64_u64Word (by omega)] at first
      rw [unchanged, wordU64_u64Word fits] at second
      omega
    · rw [sum_put_balance_ne free same' inside' inside receives, ← debited,
        sum_put_balance_ne free same' inside' inside sends]
      exact ensured other inside'

variable (derive) in
theorem setAllowance_sound {owner spender : AccountId} (known : owner ∈ scope.owners) (spends : spender ∈ scope.owners)
    (amount : Nat) : slots.Sound scope t (slots.setAllowance derive t mint owner spender amount) := by
  have same := storage_ensureAccount derive t slots.program
  have ensured := conserved.of_storage same
  unfold setAllowance
  dsimp only
  split
  · exact .still conserved same
  refine ⟨?_, fun failed => by cases failed⟩
  have allowed := ensured.put_other free (u64Word amount) (allowance_mem inside known spends) (by simp) (by simp)
  exact allowed

end Calls

theorem transferBetweenOwners_mint (free : slots.CollisionFree erc20Address scope) (inside : mint ∈ scope.mints)
    {sender recipient : AccountId} (sends : sender ∈ scope.owners) (receives : recipient ∈ scope.owners) {amount : Nat}
    {changes : List StateChange} (done : slots.transferBetweenOwners derive t mint sender recipient amount =
      (.ok changes, t')) :
    slots.word t' (slots.mintSlot mint) ≠ 0 ∨ t' = t := by
  unfold transferBetweenOwners at done
  split at done
  · cases done
    exact .inr rfl
  dsimp only at done
  split at done
  · cases done
  rename_i there
  split at done
  · cases done
  split at done
  · cases done
    exact .inl there
  generalize ensureAccount derive t slots.program = s at done there
  split at done
  · cases done
  rename_i credited sum
  cases done
  left
  have first := free.word_set (t := s) (balance_mem inside sends) (mint_mem inside)
    (u64Word (slots.tokenBalance s mint sender - amount))
  have second := free.word_set
    (t := slots.put s (.balance mint sender) (u64Word (slots.tokenBalance s mint sender - amount)))
    (balance_mem inside receives) (mint_mem inside) (u64Word credited)
  rw [if_neg (by simp)] at first second
  exact fun zero => there (first.symm.trans (second.symm.trans zero))

section

variable (free : slots.CollisionFree erc20Address scope) (conserved : slots.Conserved scope t)

include free conserved

theorem transferFrom_sound (inside : mint ∈ scope.mints)
    {spender owner recipient : AccountId} (spends : spender ∈ scope.owners)
    (known : owner ∈ scope.owners) (receives : recipient ∈ scope.owners) (amount : Nat) :
    slots.Sound scope t (slots.transferFrom derive t mint spender owner recipient amount) := by
  have moved := transferBetweenOwners_sound derive free conserved inside known receives amount
  unfold transferFrom
  dsimp only
  split
  · exact .still conserved rfl
  cases transferred : slots.transferBetweenOwners derive t mint owner recipient amount with
  | mk result s =>
    rw [transferred] at moved
    cases result with
    | error text => exact moved
    | ok changes =>
      have allowed := setAllowance_sound derive free moved.1 inside known spends
        (slots.allowanceOf t mint owner spender - amount)
      dsimp only
      cases set : slots.setAllowance derive s mint owner spender (slots.allowanceOf t mint owner spender - amount) with
      | mk result' s' =>
        rw [set] at allowed
        cases result' with
        | ok changes' => exact ⟨allowed.1, fun failed => by cases failed⟩
        | error text =>
          -- the allowance is refused only where the mint is missing, and there nothing was moved
          have missing : slots.word s (slots.mintSlot mint) = 0 := by
            unfold setAllowance at set
            dsimp only at set
            split at set
            · rename_i zero
              rw [word_ensure] at zero
              exact zero
            · cases set
          rcases transferBetweenOwners_mint free inside known receives transferred with there | rfl
          · exact absurd missing there
          · exact allowed

variable (derive) in
theorem call_sound {c : TokenCall} (inside : c.mint ∈ scope.mints) (known : ∀ owner ∈ c.owners, owner ∈ scope.owners) :
    slots.Sound scope t (slots.call derive erc20Address t c) := by
  cases c with
  | createMint mint decimals authority => exact createMint_sound free conserved inside decimals authority
  | mintToOwner mint owner amount caller =>
    exact mintToOwner_sound free conserved inside (known owner (by simp [owners])) amount.toNat caller
  | transferBetweenOwners mint sender recipient amount =>
    exact transferBetweenOwners_sound derive free conserved inside (known sender (by simp [owners]))
      (known recipient (by simp [owners])) amount.toNat
  | setAllowance mint owner spender amount =>
    exact setAllowance_sound derive free conserved inside (known owner (by simp [owners]))
      (known spender (by simp [owners])) amount.toNat
  | transferFrom mint spender owner recipient amount =>
    exact transferFrom_sound free conserved inside (known spender (by simp [owners]))
      (known owner (by simp [owners])) (known recipient (by simp [owners])) amount.toNat

end

theorem conserved_empty (empty : ∀ slot, slots.word t slot = 0) : slots.Conserved scope t := by
  intro mint _
  rw [supplyOf_eq, empty, wordU64_zero]
  symm
  apply Finset.sum_eq_zero
  intro owner _
  unfold tokenBalance
  rw [empty, wordU64_zero]

theorem run_conserved (free : slots.CollisionFree erc20Address scope) (empty : ∀ slot, slots.word t slot = 0)
    {calls : List TokenCall} (mints : ∀ c ∈ calls, c.mint ∈ scope.mints)
    (owners : ∀ c ∈ calls, ∀ owner ∈ c.owners, owner ∈ scope.owners) :
    slots.Conserved scope (run (slots.callStep derive erc20Address) t calls) := by
  refine run_invariant ?_ (conserved_empty empty) (meets_true calls)
  intro s c member conserved _
  exact (call_sound derive free conserved (mints c member) (owners c member)).1

/-- From an empty ledger, through any calls with any outcomes: every supply is what the owners have, no balance exceeds it, and
a call that fails leaves every balance, supply and allowance as it was. The scope is any finite set of mints and owners
that has those of the calls and whose words do not collide. -/
theorem token_ledger_conserved (slots : TokenSlots) (derive : Derivations) (erc20Address : Hash → Address) (scope : TokenScope)
    (free : slots.CollisionFree erc20Address scope) (start : StateTree) (empty : ∀ slot, slots.word start slot = 0)
    (calls : List TokenCall) (mints : ∀ c ∈ calls, c.mint ∈ scope.mints)
    (owners : ∀ c ∈ calls, ∀ owner ∈ c.owners, owner ∈ scope.owners) (n : Nat) :
    let t := run (slots.callStep derive erc20Address) start (calls.take n)
    (∀ mint ∈ scope.mints, slots.supplyOf t mint = ∑ owner ∈ scope.owners, slots.tokenBalance t mint owner ∧
      ∀ owner ∈ scope.owners, slots.tokenBalance t mint owner ≤ slots.supplyOf t mint) ∧
    ∀ c, calls[n]? = some c → ∀ text t', slots.call derive erc20Address t c = (.error text, t') → ∀ mint owner spender,
      slots.tokenBalance t' mint owner = slots.tokenBalance t mint owner ∧ slots.supplyOf t' mint = slots.supplyOf t mint ∧
        slots.allowanceOf t' mint owner spender = slots.allowanceOf t mint owner spender := by
  intro t
  have conserved : slots.Conserved scope t := run_conserved free empty (fun c member => mints c (List.mem_of_mem_take member))
    (fun c member => owners c (List.mem_of_mem_take member))
  refine ⟨fun mint inside => ⟨conserved mint inside, fun owner known => conserved.balance_le inside known⟩, ?_⟩
  intro c next text t' failed mint owner spender
  have member := List.mem_of_getElem? next
  have sound := call_sound derive free conserved (mints c member) (owners c member)
  rw [failed] at sound
  have same : t'.contractStorage = t.contractStorage := sound.2 rfl
  refine ⟨?_, ?_, ?_⟩
  · exact congrArg wordU64 (word_of_storage same _)
  · rw [supplyOf_eq, supplyOf_eq, word_of_storage same]
  · exact congrArg wordU64 (word_of_storage same _)

end TokenSlots

namespace SmallLedger

def tokens : TokenSlots where
  program := ⟨999⟩
  mintSlot mint := 0x10000 + mint
  authoritySlot mint := 0x20000 + mint
  balanceSlot mint owner := 0x30000 + mint * 0x100 + owner.bytes
  allowanceSlot mint owner spender := 0x1000000 + mint * 0x10000 + owner.bytes * 0x100 + spender.bytes
  contractSlot address := 0x40000 + address.setWidth 256

def derive : Derivations := .ofWidths (fun a _ => a.idCom.bytes) (fun _ => 1)

def erc20Address (mint : Hash) : Address := mint.setWidth 160

def scope : TokenScope := ⟨{5, 6}, {⟨1⟩, ⟨2⟩, ⟨3⟩}⟩

def calls : List TokenCall :=
  [.createMint 5 6 9, .mintToOwner 5 ⟨1⟩ 100 ⟨9⟩, .transferBetweenOwners 5 ⟨1⟩ ⟨2⟩ 30, .setAllowance 5 ⟨2⟩ ⟨3⟩ 20,
    .transferFrom 5 ⟨3⟩ ⟨2⟩ ⟨1⟩ 10, .transferBetweenOwners 5 ⟨2⟩ ⟨1⟩ 500]

def ledger : StateTree := run (tokens.callStep derive erc20Address) StateTree.new (calls.take 5)

end SmallLedger

open SmallLedger

theorem small_ledger_conserved :
    tokens.supplyOf ledger 5 = 100 ∧
    tokens.supplyOf ledger 5 =
      ∑ owner ∈ scope.owners, tokens.tokenBalance ledger 5 owner :=
  ⟨by decide +kernel,
    ((TokenSlots.token_ledger_conserved tokens derive erc20Address scope
      (by decide +kernel) StateTree.new (fun _ => rfl) calls (by decide +kernel) (by decide +kernel) 5).1 5
      (by decide)).1⟩

end AceChain.Vm
