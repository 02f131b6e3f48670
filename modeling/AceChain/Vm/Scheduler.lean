import AceChain.Node.Execution
import AceChain.Vm.Engine

namespace AceChain.Vm

open AceChain.Runtime Node

namespace Scheduler

variable (tx : Transaction)

def transferWriteSet : WriteSet :=
  let recipientOffset := if 49 ≤ tx.payload.length then 9 else 1
  if recipientOffset + 32 ≤ tx.payload.length then .accounts ([tx.sender].insert (accountAt tx.payload recipientOffset))
  else .accounts [tx.sender]

def createWriteSet : WriteSet :=
  if 33 ≤ tx.payload.length then .accounts ([tx.sender].insert (accountAt tx.payload 1)) else .accounts [tx.sender]

/-- The declared keys, read in entries of 34 bytes as long as there are whole ones. -/
def declaredAccounts (payload : List UInt8) : Nat → Nat → List AccountId → List AccountId
  | 0, _, ids => ids
  | n + 1, cursor, ids =>
    if payload.length < cursor + 34 then ids
    else declaredAccounts payload n (cursor + 34) (ids.insert (accountAt payload cursor))

def invokeWriteSet : WriteSet :=
  if tx.payload.length < 34 then .global
  else .accounts (declaredAccounts tx.payload (tx.payload.getD 33 0).toNat 34 [tx.sender])

/-- The cursor behind the inputs of a UTXO spend, `none` if they are cut short. -/
def skipInputs (payload : List UInt8) : Nat → Nat → Option Nat
  | 0, cursor => some cursor
  | n + 1, cursor =>
    if payload.length < cursor + 40 then none
    else
      let next := cursor + 40 + leNat (slice payload (cursor + 36) 4)
      if payload.length < next then none else skipInputs payload n next

/-- The recipients of the outputs; those behind an output whose script is cut short are not looked for. -/
def outputRecipients (payload : List UInt8) : Nat → Nat → List AccountId → Option (List AccountId)
  | 0, _, ids => some ids
  | n + 1, cursor, ids =>
    if payload.length < cursor + 40 then none
    else
      let ids := ids.insert (accountAt payload cursor)
      if payload.length < cursor + 44 then some ids
      else
        let next := cursor + 44 + leNat (slice payload (cursor + 40) 4)
        if payload.length < next then some ids else outputRecipients payload n next ids

def spendWriteSet : WriteSet :=
  if (Externals.isRaw .btc tx).isSome then .global
  else if tx.payload.length ≤ 1 then .accounts [tx.sender]
  else
    match skipInputs tx.payload (tx.payload.getD 1 0).toNat 2 with
    | none => .global
    | some cursor =>
      if tx.payload.length ≤ cursor then .accounts [tx.sender]
      else
        match outputRecipients tx.payload (tx.payload.getD cursor 0).toNat (cursor + 1) [tx.sender] with
        | none => .global
        | some ids => .accounts ids

variable (bookAccount : Hash → AccountId)

def liquidWriteSet (tx : Transaction) : WriteSet :=
  if 42 ≤ tx.payload.length ∧ (tx.payload.getD 1 0 = 0x02 ∨ tx.payload.getD 1 0 = 0x03) then
    .accounts ([tx.sender].insert (bookAccount (beHash (slice tx.payload 10 32))))
  else .global

/-- `b"transfer"`. -/
def moveTransfer : List UInt8 := [0x74, 0x72, 0x61, 0x6e, 0x73, 0x66, 0x65, 0x72]

def moveWriteSet : WriteSet :=
  let nameLen := leNat (slice tx.payload 73 2)
  if tx.payload.length < 75 then .global
  else if tx.payload.length < 75 + nameLen then .global
  else
    let args := 75 + nameLen + 2
    if slice tx.payload 75 nameLen = moveTransfer ∧ args + 33 ≤ tx.payload.length then
      .accounts ([tx.sender].insert (accountAt tx.payload (args + 1)))
    else .global

def extractWriteSet (tx : Transaction) : WriteSet :=
  match tx.payload.head? with
  | none => .accounts []
  | some opcode =>
    if opcode = 0x01 ∨ opcode = 0x21 ∨ opcode = 0x30 then transferWriteSet tx
    else if opcode = 0x02 then createWriteSet tx
    else if 0x10 ≤ opcode ∧ opcode ≤ 0x13 then .global
    else if opcode = 0x20 then invokeWriteSet tx
    else if opcode = 0x31 then .accounts [tx.sender]
    else if opcode = 0x32 then spendWriteSet tx
    else if opcode = 0x03 ∨ opcode = 0x04 then .accounts [tx.sender]
    else if opcode = 0x05 ∨ (0x06 ≤ opcode ∧ opcode ≤ 0x0B) ∨ opcode = 0x0D ∨ opcode = 0x0E then .global
    else if opcode = opMevAceOmissionEvidence then .global
    else if opcode = 0x0F then liquidWriteSet bookAccount tx
    else if opcode = 0x0C then .accounts [tx.sender]
    else if 0x40 ≤ opcode ∧ opcode ≤ 0x4F then .global
    else if 0x50 ≤ opcode ∧ opcode ≤ 0x5F then moveWriteSet tx
    else .accounts []

def conflictsWith : WriteSet → WriteSet → Bool
  | .accounts ids, .accounts others => ids.any (fun id => others.contains id)
  | _, _ => true

structure Batch where
  txIndices : List Nat
  writeSetUnion : WriteSet
deriving DecidableEq

namespace Batch

def new : Batch := ⟨[], .accounts []⟩

def merged : WriteSet → WriteSet → WriteSet
  | .accounts union, .accounts ids => .accounts (union ∪ ids)
  | _, _ => .global

/-- An empty batch takes any transaction. -/
def tryAdd (b : Batch) (index : Nat) (ws : WriteSet) : Option Batch :=
  if b.txIndices ≠ [] ∧ conflictsWith b.writeSetUnion ws = true then none
  else some ⟨b.txIndices ++ [index], merged b.writeSetUnion ws⟩

end Batch

/-- The first batch from `earliest` on that takes the transaction, with its number. -/
def place (index : Nat) (ws : WriteSet) : List Batch → Nat → Option (Nat × List Batch)
  | [], _ => none
  | b :: rest, earliest =>
    let later := (place index ws rest (earliest - 1)).map (fun placed => (placed.1 + 1, b :: placed.2))
    if earliest = 0 then
      match b.tryAdd index ws with
      | some b => some (0, b :: rest)
      | none => later
    else later

structure Plan where
  batches : List Batch
  senderLatest : AccountId → Option Nat

variable (writeSet : Transaction → WriteSet)

/-- A transaction comes after its sender's last one, in the first batch it does not conflict with. -/
def Plan.add (p : Plan) (entry : Transaction × Nat) : Plan :=
  let (tx, index) := entry
  let earliest := ((p.senderLatest tx.sender).map (· + 1)).getD 0
  match place index (writeSet tx) p.batches earliest with
  | some (at_, batches) => ⟨batches, Function.update p.senderLatest tx.sender (some at_)⟩
  | none =>
    ⟨p.batches ++ [⟨[index], Batch.merged (.accounts []) (writeSet tx)⟩],
      Function.update p.senderLatest tx.sender (some p.batches.length)⟩

def buildBatches (txs : List Transaction) : List Batch :=
  (txs.zipIdx.foldl (Plan.add writeSet) ⟨[], fun _ => none⟩).batches

end Scheduler

end AceChain.Vm
