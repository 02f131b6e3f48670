import AceChain.State.Tiers
import AceChain.Vm.Words

namespace AceChain.Vm

open AceChain.Runtime Engine State Lib Function

theorem storage_ensureAccount (derive : Derivations) (t : StateTree) (id : AccountId) :
    (ensureAccount derive t id).contractStorage = t.contractStorage := by
  unfold ensureAccount
  split <;> rfl

structure MintMeta where
  supply : Nat
  decimals : UInt8
  authority : Hash
deriving DecidableEq

/-- The account of the token program and its SHA-256 storage slots. -/
structure TokenSlots where
  program : AccountId
  mintSlot : Hash → Hash
  authoritySlot : Hash → Hash
  balanceSlot : Hash → AccountId → Hash
  allowanceSlot : Hash → AccountId → AccountId → Hash
  contractSlot : Address → Hash

namespace TokenSlots

variable (slots : TokenSlots) (derive : Derivations) (t : StateTree)

def word (slot : Hash) : Hash := t.getStorage slots.program slot

def mintForRuntimeErc20Address (address : Address) : Option Hash :=
  let mint := slots.word t (slots.contractSlot address)
  if mint = 0 then none else some mint

variable (mint : Hash)

def getMintMeta : Option MintMeta :=
  let value := slots.word t (slots.mintSlot mint)
  if value = 0 then none
  else some ⟨wordU64 value, (hashBytes value).getD 8 0, slots.word t (slots.authoritySlot mint)⟩

def tokenBalance (owner : AccountId) : Nat :=
  wordU64 (slots.word t (slots.balanceSlot mint owner))

def allowanceOf (owner spender : AccountId) : Nat :=
  wordU64 (slots.word t (slots.allowanceSlot mint owner spender))

/-- Storage writes of the token program, with their changes; the old values are those before all of them. -/
def write (writes : List (Hash × Nat)) : Outcome String (List StateChange) :=
  (.ok (writes.map (fun entry => .storageChange slots.program entry.1 (slots.word t entry.1) (u64Word entry.2))),
    writes.foldl (fun t entry => t.setStorage slots.program entry.1 (u64Word entry.2)) t)

def transferBetweenOwners (sender recipient : AccountId) (amount : Nat) :
    Outcome String (List StateChange) :=
  if amount = 0 then (.ok [], t)
  else
    let t := ensureAccount derive t slots.program
    let senderBalance := slots.tokenBalance t mint sender
    if slots.word t (slots.mintSlot mint) = 0 then (.error "mint does not exist", t)
    else if senderBalance < amount then (.error "insufficient token balance", t)
    else if sender = recipient then (.ok [], t)
    else
      match u64CheckedAdd (slots.tokenBalance t mint recipient) amount with
      | none => (.error "recipient balance overflow", t)
      | some credited =>
        slots.write t
          [(slots.balanceSlot mint sender, senderBalance - amount), (slots.balanceSlot mint recipient, credited)]

def setAllowance (owner spender : AccountId) (amount : Nat) :
    Outcome String (List StateChange) :=
  let t := ensureAccount derive t slots.program
  if slots.word t (slots.mintSlot mint) = 0 then (.error "mint does not exist", t)
  else slots.write t [(slots.allowanceSlot mint owner spender, amount)]

def transferFrom (spender owner recipient : AccountId) (amount : Nat) :
    Outcome String (List StateChange) :=
  let allowance := slots.allowanceOf t mint owner spender
  if allowance < amount then (.error "allowance too low", t)
  else
    match slots.transferBetweenOwners derive t mint owner recipient amount with
    | (.error text, t) => (.error text, t)
    | (.ok moved, t) =>
      match slots.setAllowance derive t mint owner spender (allowance - amount) with
      | (.error text, t) => (.error text, t)
      | (.ok allowed, t) => (.ok (moved ++ allowed), t)

/-- The supply at the front of a mint's word is replaced, the decimals behind it stay. -/
def withSupply (word : Hash) (supply : Nat) : Hash := beHash (leBytes 8 supply ++ (hashBytes word).drop 8)

def createMint (erc20Address : Hash → Address) (t : StateTree) (mint : Hash) (decimals : UInt8) (authority : Hash) :
    Outcome String (List StateChange) :=
  let t := ensureAccount derive t slots.program
  if slots.word t (slots.mintSlot mint) ≠ 0 then (.error "mint already exists", t)
  else
    let value := wordOf (List.replicate 8 0 ++ [decimals])
    let writes := [(slots.mintSlot mint, value), (slots.authoritySlot mint, authority),
      (slots.contractSlot (erc20Address mint), mint)]
    (.ok (writes.map (fun entry => .storageChange slots.program entry.1 0 entry.2)),
      writes.foldl (fun t entry => t.setStorage slots.program entry.1 entry.2) t)

def mintToOwner (owner : AccountId) (amount : Nat) (caller : AccountId) :
    Outcome String (List StateChange) :=
  if amount = 0 then (.ok [], t)
  else
    let t := ensureAccount derive t slots.program
    let oldMint := slots.word t (slots.mintSlot mint)
    if oldMint = 0 then (.error "mint does not exist", t)
    else if caller.bytes ≠ slots.word t (slots.authoritySlot mint) then (.error "caller is not the mint authority", t)
    else
      match u64CheckedAdd (wordU64 oldMint) amount with
      | none => (.error "supply overflow", t)
      | some newSupply =>
        -- the supply is already written when the balance overflows
        let minted := t.setStorage slots.program (slots.mintSlot mint) (withSupply oldMint newSupply)
        let oldBalance := slots.word minted (slots.balanceSlot mint owner)
        match u64CheckedAdd (wordU64 oldBalance) amount with
        | none => (.error "balance overflow", minted)
        | some newBalance =>
          (.ok [.storageChange slots.program (slots.mintSlot mint) oldMint (withSupply oldMint newSupply),
              .storageChange slots.program (slots.balanceSlot mint owner) oldBalance (u64Word newBalance)],
            minted.setStorage slots.program (slots.balanceSlot mint owner) (u64Word newBalance))

/-- Words are written to the storage of the program, one after the other. -/
def fill (writes : List (Hash × Hash)) : StateTree :=
  writes.foldl (fun t entry => t.setStorage slots.program entry.1 entry.2) t

/-- Code whose answer and writes depend on the words of the ledger alone, and with them whether it makes the program's
account. -/
def Ledgered (touches : Hash → Prop) (f : StateTree → Outcome String (List StateChange)) : Prop :=
  ∀ words : Hash → Hash, ∃ result writes, ∃ makes : Bool, (∀ entry ∈ writes, touches entry.1) ∧ ∀ t, slots.word t = words →
    f t = (result, slots.fill (if makes then ensureAccount derive t slots.program else t) writes)

section Ledgered

variable {slots} {derive} {t t' : StateTree} {mint : Hash}

theorem word_of_storage (same : t'.contractStorage = t.contractStorage) (slot : Hash) :
    slots.word t' slot = slots.word t slot := by
  unfold word
  rw [getStorage_eq, getStorage_eq, same]

@[simp] theorem word_ensure (slot : Hash) : slots.word (ensureAccount derive t slots.program) slot = slots.word t slot :=
  word_of_storage (storage_ensureAccount derive t slots.program) slot

theorem word_setStorage (slot other value : Hash) :
    slots.word (t.setStorage slots.program slot value) other = if other = slot then value else slots.word t other := by
  unfold word
  rw [getStorage_setStorage]
  simp only [true_and]

theorem word_fill (t : StateTree) (writes : List (Hash × Hash)) :
    slots.word (slots.fill t writes) = writes.foldl (fun words entry => update words entry.1 entry.2) (slots.word t) := by
  induction writes generalizing t with
  | nil => rfl
  | cons entry writes ih =>
    have next : slots.word (t.setStorage slots.program entry.1 entry.2) = update (slots.word t) entry.1 entry.2 := by
      funext slot
      rw [word_setStorage, update_apply]
    unfold fill at ih ⊢
    rw [List.foldl_cons, ih, next, List.foldl_cons]

theorem word_fill_apart {slot : Hash} {writes : List (Hash × Hash)} (apart : ∀ entry ∈ writes, slot ≠ entry.1) :
    slots.word (slots.fill t writes) slot = slots.word t slot := by
  unfold fill
  induction writes generalizing t with
  | nil => rfl
  | cons entry writes ih =>
    rw [List.foldl_cons, ih (fun e member => apart e (List.mem_cons_of_mem _ member)), word_setStorage,
      if_neg (apart entry List.mem_cons_self)]

variable (writes : List (Hash × Hash))

theorem ensureAccount_fill :
    ensureAccount derive (slots.fill t writes) slots.program = slots.fill (ensureAccount derive t slots.program) writes := by
  unfold fill
  induction writes generalizing t with
  | nil => rfl
  | cons entry writes ih =>
    have commute : ensureAccount derive (t.setStorage slots.program entry.1 entry.2) slots.program =
        (ensureAccount derive t slots.program).setStorage slots.program entry.1 entry.2 := by
      unfold ensureAccount
      rw [show (t.setStorage slots.program entry.1 entry.2).contains slots.program = t.contains slots.program from rfl]
      split <;> rfl
    rw [List.foldl_cons, ih, commute, List.foldl_cons]

variable {touches : Hash → Prop} {f : StateTree → Outcome String (List StateChange)}

theorem Ledgered.word (ledgered : slots.Ledgered derive touches f) {slot : Hash} (apart : ¬touches slot) :
    slots.word (f t).2 slot = slots.word t slot := by
  obtain ⟨result, writes, makes, touched, done⟩ := ledgered (slots.word t)
  have outside : ∀ entry ∈ writes, slot ≠ entry.1 := fun entry member same => apart (same ▸ touched entry member)
  rw [done t rfl, word_fill_apart outside]
  cases makes with
  | false => rfl
  | true => exact word_ensure slot

variable (slots : TokenSlots) (derive : Derivations) (mint : Hash)

theorem transferBetweenOwners_ledgered (sender recipient : AccountId)
    (amount : Nat) : slots.Ledgered derive (fun slot => slot = slots.balanceSlot mint sender ∨
      slot = slots.balanceSlot mint recipient)
      (fun t => slots.transferBetweenOwners derive t mint sender recipient amount) := by
  intro words
  unfold transferBetweenOwners tokenBalance
  by_cases zero : amount = 0
  · exact ⟨.ok [], [], false, by simp, fun t _ => if_pos zero⟩
  simp only [zero, if_false, word_ensure]
  by_cases missing : words (slots.mintSlot mint) = 0
  · exact ⟨.error "mint does not exist", [], true, by simp, fun t same => by rw [same, if_pos missing]; rfl⟩
  by_cases short : wordU64 (words (slots.balanceSlot mint sender)) < amount
  · exact ⟨.error "insufficient token balance", [], true, by simp,
      fun t same => by rw [same, if_neg missing, if_pos short]; rfl⟩
  by_cases self : sender = recipient
  · exact ⟨.ok [], [], true, by simp, fun t same => by rw [same, if_neg missing, if_neg short, if_pos self]; rfl⟩
  cases sum : u64CheckedAdd (wordU64 (words (slots.balanceSlot mint recipient))) amount with
  | none =>
    exact ⟨.error "recipient balance overflow", [], true, by simp, fun t same => by
      rw [same, if_neg missing, if_neg short, if_neg self, sum]; rfl⟩
  | some credited =>
    exact ⟨_, [(slots.balanceSlot mint sender, u64Word (wordU64 (words (slots.balanceSlot mint sender)) - amount)),
      (slots.balanceSlot mint recipient, u64Word credited)], true, by simp, fun t same => by
        rw [same, if_neg missing, if_neg short, if_neg self, sum]; simp only [write, word_ensure, same]; rfl⟩

theorem setAllowance_ledgered (owner spender : AccountId) (amount : Nat) :
    slots.Ledgered derive (· = slots.allowanceSlot mint owner spender)
      (fun t => slots.setAllowance derive t mint owner spender amount) := by
  intro words
  unfold setAllowance
  simp only [word_ensure]
  by_cases missing : words (slots.mintSlot mint) = 0
  · exact ⟨.error "mint does not exist", [], true, by simp, fun t same => by rw [same, if_pos missing]; rfl⟩
  · exact ⟨_, [(slots.allowanceSlot mint owner spender, u64Word amount)], true, by simp, fun t same => by
      rw [same, if_neg missing]; simp only [write, word_ensure, same]; rfl⟩

theorem createMint_ledgered (erc20Address : Hash → Address) (mint : Hash)
    (decimals : UInt8) (authority : Hash) : slots.Ledgered derive
      (fun slot => slot = slots.mintSlot mint ∨ slot = slots.authoritySlot mint ∨
        slot = slots.contractSlot (erc20Address mint))
      (fun t => slots.createMint derive erc20Address t mint decimals authority) := by
  intro words
  unfold createMint
  simp only [word_ensure]
  by_cases taken : words (slots.mintSlot mint) ≠ 0
  · exact ⟨.error "mint already exists", [], true, by simp, fun t same => by rw [same, if_pos taken]; rfl⟩
  · exact ⟨_, [(slots.mintSlot mint, wordOf (List.replicate 8 0 ++ [decimals])), (slots.authoritySlot mint, authority),
      (slots.contractSlot (erc20Address mint), mint)], true, by simp, fun t same => by rw [same, if_neg taken]; rfl⟩

theorem mintToOwner_ledgered (owner : AccountId) (amount : Nat)
    (caller : AccountId) : slots.Ledgered derive (fun slot => slot = slots.mintSlot mint ∨ slot = slots.balanceSlot mint owner)
      (fun t => slots.mintToOwner derive t mint owner amount caller) := by
  intro words
  unfold mintToOwner
  by_cases zero : amount = 0
  · exact ⟨.ok [], [], false, by simp, fun t _ => if_pos zero⟩
  simp only [zero, if_false, word_setStorage, word_ensure]
  by_cases missing : words (slots.mintSlot mint) = 0
  · exact ⟨.error "mint does not exist", [], true, by simp, fun t same => by rw [same, if_pos missing]; rfl⟩
  by_cases foreign : caller.bytes ≠ words (slots.authoritySlot mint)
  · exact ⟨.error "caller is not the mint authority", [], true, by simp, fun t same => by
      rw [same, if_neg missing, if_pos foreign]; rfl⟩
  cases supply : u64CheckedAdd (wordU64 (words (slots.mintSlot mint))) amount with
  | none =>
    exact ⟨.error "supply overflow", [], true, by simp,
      fun t same => by rw [same, if_neg missing, if_neg foreign, supply]; rfl⟩
  | some newSupply =>
    -- the balance is read after the supply is written
    cases sum : u64CheckedAdd (wordU64 (if slots.balanceSlot mint owner = slots.mintSlot mint then
        withSupply (words (slots.mintSlot mint)) newSupply else words (slots.balanceSlot mint owner))) amount with
    | none =>
      exact ⟨.error "balance overflow", [(slots.mintSlot mint, withSupply (words (slots.mintSlot mint)) newSupply)],
        true, by simp,
        fun t same => by rw [same, if_neg missing, if_neg foreign, supply]; dsimp only; rw [sum]; rfl⟩
    | some newBalance =>
      exact ⟨_, [(slots.mintSlot mint, withSupply (words (slots.mintSlot mint)) newSupply),
        (slots.balanceSlot mint owner, u64Word newBalance)], true, by simp,
        fun t same => by rw [same, if_neg missing, if_neg foreign, supply]; dsimp only; rw [sum]; rfl⟩

theorem transferFrom_ledgered (spender owner recipient : AccountId)
    (amount : Nat) : slots.Ledgered derive
      (fun slot => (slot = slots.balanceSlot mint owner ∨ slot = slots.balanceSlot mint recipient) ∨
        slot = slots.allowanceSlot mint owner spender)
      (fun t => slots.transferFrom derive t mint spender owner recipient amount) := by
  intro words
  unfold transferFrom allowanceOf
  by_cases low : wordU64 (words (slots.allowanceSlot mint owner spender)) < amount
  · exact ⟨.error "allowance too low", [], false, by simp, fun t same => by subst same; exact if_pos low⟩
  obtain ⟨result, writes, makes, touched, moves⟩ :=
    transferBetweenOwners_ledgered slots derive mint owner recipient amount words
  cases result with
  | error text =>
    refine ⟨.error text, writes, makes, fun entry member => .inl (touched entry member), fun t same => ?_⟩
    simp only [same, low, if_false, moves t same]
  | ok moved =>
    obtain ⟨result, rest, again, allowed, sets⟩ := setAllowance_ledgered slots derive mint owner spender
      (wordU64 (words (slots.allowanceSlot mint owner spender)) - amount)
      (writes.foldl (fun words entry => update words entry.1 entry.2) words)
    refine ⟨result.map (moved ++ ·), writes ++ rest, makes || again, ?_, fun t same => ?_⟩
    · intro entry member
      exact (List.mem_append.mp member).imp (touched entry) (allowed entry)
    · have based : slots.word (if makes then ensureAccount derive t slots.program else t) = words := by
        rw [← same]
        cases makes with
        | false => rfl
        | true => exact funext fun slot => word_ensure slot
      have second := sets (slots.fill (if makes then ensureAccount derive t slots.program else t) writes)
        (by rw [word_fill, based])
      have twice : ensureAccount derive (ensureAccount derive t slots.program) slots.program =
          ensureAccount derive t slots.program :=
        if_pos (contains_ensureAccount derive t slots.program)
      have joined : ∀ base, slots.fill base (writes ++ rest) = slots.fill (slots.fill base writes) rest :=
        fun base => List.foldl_append
      have states : slots.fill (if again then ensureAccount derive
            (slots.fill (if makes then ensureAccount derive t slots.program else t) writes) slots.program
          else slots.fill (if makes then ensureAccount derive t slots.program else t) writes) rest =
          slots.fill (if makes || again then ensureAccount derive t slots.program else t) (writes ++ rest) := by
        cases makes <;> cases again <;> simp [joined, ensureAccount_fill, twice]
      simp only [same, low, if_false, moves t same]
      dsimp only at second
      rw [second, states]
      cases result <;> rfl

end Ledgered

end TokenSlots

end AceChain.Vm
