import AceChain.Lib.Handler
import AceChain.Vm.Svm

namespace AceChain.Vm

open AceChain.Runtime Engine State Lib Handler

structure TokenAccountMeta where
  mint : Hash
  ownerSolPubkey : Hash
  ownerIdcom : Hash
deriving DecidableEq

/-- The SHA-256 slots of SPL token accounts, and the addresses derived from Solana keys and mints. -/
structure SplDerivations where
  accountMintSlot : Hash → Hash
  accountOwnerIdcomSlot : Hash → Hash
  accountOwnerSolSlot : Hash → Hash
  legacyIdcomSolana : Hash → Hash
  deriveAssociatedTokenAddress : Hash → Hash → Hash
  runtimeErc20AddressForMint : Hash → Address

def systemProgramId : Hash := 1

def tokenProgramId : Hash := 2

structure Programs where
  derive : Derivations
  tokens : TokenSlots
  spl : SplDerivations

abbrev ProgramM := Handler StateTree String

namespace Programs

variable (p : Programs)

def stop {α : Type} (text : String) : ProgramM α := fun t => (.error text, t)

variable (caller : AccountId) (accounts : List Hash) (data : List UInt8)

def systemTransfer : ProgramM (List StateChange) := do
  let recipient ← demand (fun _ => accounts.head?) "transfer: missing recipient"
  require (9 ≤ data.length) "transfer: data too short"
  adapt EngineError.text (fun t => transfer p.derive t caller ⟨recipient⟩ (u64At data 1) none)

def systemCreateAccount : ProgramM (List StateChange) := do
  let newId ← demand (fun _ => accounts.head?) "create_account: missing account id"
  let known ← read (fun t => t.contains ⟨newId⟩)
  require (known = false) "account already exists"
  write (fun t => t.insert p.derive (Account.new ⟨newId⟩))
  pure [.accountCreated ⟨newId⟩]

def systemProgram : ProgramM (List StateChange) := do
  let instruction ← demand (fun _ => data.head?) "empty instruction data"
  if instruction = 0x00 then p.systemTransfer caller accounts data
  else if instruction = 0x01 then p.systemCreateAccount accounts
  else stop ("SystemProgram: unknown instruction 0x" ++ instruction.toBitVec.toHex)

def ensureTokenProgramAccount : ProgramM (List StateChange) := do
  let known ← read (fun t => t.contains p.tokens.program)
  write (fun t => ensureAccount p.derive t p.tokens.program)
  pure (if known then [] else [.accountCreated p.tokens.program])

def getTokenAccountMeta (tokenAccount : Hash) (t : StateTree) : Option TokenAccountMeta :=
  let mint := p.tokens.word t (p.spl.accountMintSlot tokenAccount)
  let ownerSolPubkey := p.tokens.word t (p.spl.accountOwnerSolSlot tokenAccount)
  let ownerIdcom := p.tokens.word t (p.spl.accountOwnerIdcomSlot tokenAccount)
  if mint = 0 ∨ ownerSolPubkey = 0 ∨ ownerIdcom = 0 then none else some ⟨mint, ownerSolPubkey, ownerIdcom⟩

def fillSlots (writes : List (Hash × Hash)) : ProgramM (List StateChange) := fun t =>
  (.ok (writes.map (fun entry => .storageChange p.tokens.program entry.1 0 entry.2)),
    writes.foldl (fun t entry => t.setStorage p.tokens.program entry.1 entry.2) t)

variable (tokenAccount mint ownerSolPubkey ownerIdcom : Hash)

def registerTokenAccount : ProgramM (List StateChange) := do
  write (fun t => ensureAccount p.derive t p.tokens.program)
  let _ ← demand (fun t => p.tokens.getMintMeta t mint) "mint does not exist"
  let existing ← read (fun t => [p.spl.accountMintSlot tokenAccount, p.spl.accountOwnerSolSlot tokenAccount,
    p.spl.accountOwnerIdcomSlot tokenAccount].map (p.tokens.word t))
  require (existing.all (· = 0) = true) "token account already exists"
  p.fillSlots [(p.spl.accountMintSlot tokenAccount, mint), (p.spl.accountOwnerIdcomSlot tokenAccount, ownerIdcom),
    (p.spl.accountOwnerSolSlot tokenAccount, ownerSolPubkey)]

def ensureRegisteredTokenAccount : ProgramM (List StateChange) := do
  let existing ← read (p.getTokenAccountMeta tokenAccount)
  if existing.isNone then p.registerTokenAccount tokenAccount mint ownerSolPubkey ownerIdcom
  else do
    require (existing = some ⟨mint, ownerSolPubkey, ownerIdcom⟩) "token account already exists with different metadata"
    pure []

def arguments (name : String) (minAccounts minData : Nat) (accounts : List Hash) (data : List UInt8) : ProgramM Unit :=
  require (minAccounts ≤ accounts.length ∧ minData ≤ data.length) (name ++ ": missing args")

def createMint : ProgramM (List StateChange) := do
  arguments "create_mint" 1 2 accounts data
  fun t => p.tokens.createMint p.derive p.spl.runtimeErc20AddressForMint t (accounts.getD 0 0) (data.getD 1 0) caller.bytes

def mintToOwner : ProgramM (List StateChange) := do
  arguments "mint_to" 2 9 accounts data
  fun t => p.tokens.mintToOwner p.derive t (accounts.getD 0 0) ⟨accounts.getD 1 0⟩ (u64At data 1) caller

def transferOwnerBalance : ProgramM (List StateChange) := do
  arguments "token_transfer" 2 9 accounts data
  fun t => p.tokens.transferBetweenOwners p.derive t (accounts.getD 0 0) caller ⟨accounts.getD 1 0⟩ (u64At data 1)

def approve : ProgramM (List StateChange) := do
  arguments "approve" 2 9 accounts data
  fun t => p.tokens.setAllowance p.derive t (accounts.getD 0 0) caller ⟨accounts.getD 1 0⟩ (u64At data 1)

def transferFrom : ProgramM (List StateChange) := do
  arguments "transfer_from" 3 9 accounts data
  fun t => p.tokens.transferFrom p.derive t (accounts.getD 0 0) caller ⟨accounts.getD 1 0⟩ ⟨accounts.getD 2 0⟩ (u64At data 1)

/-- The amount of an SPL transfer goes from one owner of a mint to another. -/
def moveOwned (mint : Hash) (source destination : TokenAccountMeta) (data : List UInt8) : ProgramM (List StateChange) :=
  fun t => p.tokens.transferBetweenOwners p.derive t mint ⟨source.ownerIdcom⟩ ⟨destination.ownerIdcom⟩ (u64At data 1)

def registerInstruction : ProgramM (List StateChange) := do
  arguments "register_token_account" 3 0 accounts data
  p.registerTokenAccount (accounts.getD 0 0) (accounts.getD 1 0) (accounts.getD 2 0)
    (p.spl.legacyIdcomSolana (accounts.getD 2 0))

/-- The authority among the accounts is not looked at: the caller has to own the source. -/
def splTransfer : ProgramM (List StateChange) := do
  arguments "spl_transfer" 3 9 accounts data
  let source ← demand (p.getTokenAccountMeta (accounts.getD 0 0)) "unknown source token account"
  let destination ← demand (p.getTokenAccountMeta (accounts.getD 1 0)) "unknown destination token account"
  require (source.mint = destination.mint) "token account mint mismatch"
  require (caller.bytes = source.ownerIdcom) "spl transfer: caller does not own the source account"
  p.moveOwned source.mint source destination data

def checkDecimals (mint : Hash) (data : List UInt8) : ProgramM Unit := do
  let found ← demand (fun t => p.tokens.getMintMeta t mint) "mint does not exist"
  require (data.getD 9 0 = found.decimals) "spl transfer checked decimals mismatch"

def splTransferChecked : ProgramM (List StateChange) := do
  arguments "spl_transfer_checked" 4 10 accounts data
  let source ← demand (p.getTokenAccountMeta (accounts.getD 0 0)) "unknown source token account"
  let destination ← demand (p.getTokenAccountMeta (accounts.getD 2 0)) "unknown destination token account"
  let mint := accounts.getD 1 0
  require (source.mint = mint ∧ destination.mint = mint) "token account mint mismatch"
  require (caller.bytes = source.ownerIdcom) "spl transfer checked: caller does not own the source account"
  p.checkDecimals mint data
  p.moveOwned mint source destination data

/-- The destination of a transfer that creates it if need be; its owner is then the account derived from the key. -/
def destinationWithAta (tokenAccount mint ownerSolPubkey : Hash) : ProgramM (TokenAccountMeta × List StateChange) := do
  let existing ← read (p.getTokenAccountMeta tokenAccount)
  if existing.isSome then do
    let found ← demand (fun _ => existing.filter (fun found => found.mint = mint ∧ found.ownerSolPubkey = ownerSolPubkey))
      "destination token account metadata mismatch"
    pure (found, [])
  else do
    require (p.spl.deriveAssociatedTokenAddress ownerSolPubkey mint = tokenAccount)
      "destination token account is not the expected ATA"
    let created ← p.ensureRegisteredTokenAccount tokenAccount mint ownerSolPubkey (p.spl.legacyIdcomSolana ownerSolPubkey)
    let found ← demand (p.getTokenAccountMeta tokenAccount) "failed to create destination token account"
    pure (found, created)

def splTransferWithAta : ProgramM (List StateChange) := do
  arguments "spl_transfer_with_ata" 4 9 accounts data
  let source ← demand (p.getTokenAccountMeta (accounts.getD 0 0)) "unknown source token account"
  require (caller.bytes = source.ownerIdcom) "spl transfer with ata: caller does not own the source account"
  let destination ← p.destinationWithAta (accounts.getD 1 0) source.mint (accounts.getD 3 0)
  let changes ← p.moveOwned source.mint source destination.1 data
  pure (destination.2 ++ changes)

def splTransferCheckedWithAta :
    ProgramM (List StateChange) := do
  arguments "spl_transfer_checked_with_ata" 5 10 accounts data
  let source ← demand (p.getTokenAccountMeta (accounts.getD 0 0)) "unknown source token account"
  let mint := accounts.getD 1 0
  require (caller.bytes = source.ownerIdcom) "spl transfer checked with ata: caller does not own the source account"
  require (source.mint = mint) "source token account mint mismatch"
  p.checkDecimals mint data
  let destination ← p.destinationWithAta (accounts.getD 2 0) mint (accounts.getD 4 0)
  let changes ← p.moveOwned mint source destination.1 data
  pure (destination.2 ++ changes)

def ensureInstruction : ProgramM (List StateChange) := do
  arguments "ensure_token_account" 3 0 accounts data
  p.ensureRegisteredTokenAccount (accounts.getD 0 0) (accounts.getD 1 0) (accounts.getD 2 0)
    (p.spl.legacyIdcomSolana (accounts.getD 2 0))

def tokenInstruction (instruction : UInt8) (caller : AccountId) (accounts : List Hash) (data : List UInt8) :
    ProgramM (List StateChange) :=
  if instruction = 0x00 then p.createMint caller accounts data
  else if instruction = 0x01 then p.mintToOwner caller accounts data
  else if instruction = 0x02 then p.transferOwnerBalance caller accounts data
  else if instruction = 0x03 then p.approve caller accounts data
  else if instruction = 0x04 then p.transferFrom caller accounts data
  else if instruction = 0x10 then p.registerInstruction accounts data
  else if instruction = 0x11 then p.splTransfer caller accounts data
  else if instruction = 0x12 then p.splTransferChecked caller accounts data
  else if instruction = 0x13 then p.splTransferWithAta caller accounts data
  else if instruction = 0x14 then p.splTransferCheckedWithAta caller accounts data
  else if instruction = 0x15 then p.ensureInstruction accounts data
  else stop ("TokenProgram: unknown instruction 0x" ++ instruction.toBitVec.toHex)

/-- The account of the token program is there before the instruction is looked at. -/
def tokenProgram : ProgramM (List StateChange) := do
  let instruction ← demand (fun _ => data.head?) "empty instruction data"
  let created ← p.ensureTokenProgramAccount
  let changes ← p.tokenInstruction instruction caller accounts data
  pure (created ++ changes)

variable (payload : List UInt8)

def invokedProgram : Hash := beHash (slice payload 1 32)

def accountCount : Nat := (payload.getD 33 0).toNat

def invokedAccounts : List Hash :=
  (List.range (accountCount payload)).map (fun i => beHash (slice payload (34 + 32 * i) 32))

def invoke : ProgramM (List StateChange) := do
  require (34 ≤ payload.length) "invoke payload too short"
  let accountsEnd := 34 + 32 * accountCount payload
  require (accountsEnd ≤ payload.length) "invoke: not enough account data"
  let accounts := invokedAccounts payload
  let data := payload.drop accountsEnd
  if invokedProgram payload = systemProgramId then p.systemProgram caller accounts data
  else if invokedProgram payload = tokenProgramId then p.tokenProgram caller accounts data
  else stop ("unknown program: 0x" ++ (invokedProgram payload).toHex)

end Programs

def Externals.programs (x : Externals) (spl : SplDerivations) : Programs where
  derive := x.derive
  tokens := { x.tokens with program := ⟨tokenProgramId⟩ }
  spl := spl

def Externals.withPrograms (x : Externals) (spl : SplDerivations) : Externals :=
  { x with
    tokens := (x.programs spl).tokens
    invokeProgram := fun t caller payload => (x.programs spl).invoke caller payload t }

end AceChain.Vm
