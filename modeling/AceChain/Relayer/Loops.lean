import AceChain.Relayer.Receipts
import Mathlib.Data.Finset.Insert

namespace AceChain.Relayer

open Defi Lib Function

structure ChainCheckpoint where
  lastScannedBlock : Nat
  processedDeposits : Finset String

structure EgressCheckpoint where
  lastCheckedSlot : Nat
  processedWithdrawals : Finset Nat
  externalTxHashes : Nat → Option String

/-- The whole content of the checkpoint file. A chain that was never written has the default checkpoint. -/
structure RelayerCheckpoints where
  chains : String → ChainCheckpoint
  egress : EgressCheckpoint

def RelayerCheckpoints.default : RelayerCheckpoints := ⟨fun _ => ⟨0, ∅⟩, ⟨0, ∅, fun _ => none⟩⟩

/-- The checkpoint file and the one temporary file beside it that all loops share. -/
structure Disk where
  file : RelayerCheckpoints
  temp : Option RelayerCheckpoints

namespace Disk

def write (d : Disk) (content : RelayerCheckpoints) (succeeds : Bool) : Disk :=
  if succeeds then { d with temp := some content } else d

def rename (d : Disk) (succeeds : Bool) : Option Disk :=
  match d.temp, succeeds with
  | some content, true => some ⟨content, none⟩
  | _, _ => none

variable {d d' : Disk} {content held : RelayerCheckpoints} {succeeds : Bool}

@[simp] theorem write_file : (d.write content succeeds).file = d.file := by cases succeeds <;> rfl

theorem write_temp (after : (d.write content succeeds).temp = some held) : d.temp = some held ∨ held = content := by
  cases succeeds with
  | false => exact .inl after
  | true => exact .inr (Option.some.inj after).symm

theorem rename_some (renamed : d.rename succeeds = some d') : succeeds = true ∧ d.temp = some d'.file ∧ d'.temp = none := by
  cases kept : d.temp <;> cases succeeds <;> simp only [rename, kept] at renamed <;> cases renamed
  exact ⟨rfl, rfl, rfl⟩

end Disk

structure WithdrawalMonitor where
  lastCheckedSlot : Nat
  processedWithdrawals : Finset Nat
  externalTxHashes : Nat → Option String

namespace WithdrawalMonitor

def restoreCheckpoint (c : EgressCheckpoint) : WithdrawalMonitor :=
  ⟨c.lastCheckedSlot, c.processedWithdrawals, c.externalTxHashes⟩

variable (m : WithdrawalMonitor)

def checkpoint : EgressCheckpoint :=
  ⟨m.lastCheckedSlot, m.processedWithdrawals, m.externalTxHashes⟩

def recordExternalTx (id : Nat) (hash : String) : WithdrawalMonitor :=
  { m with externalTxHashes := update m.externalTxHashes id (some hash) }

def markProcessed (id : Nat) : WithdrawalMonitor :=
  { m with processedWithdrawals := insert id m.processedWithdrawals }

def noteSlots (ws : List WithdrawalRecord) : WithdrawalMonitor :=
  { m with lastCheckedSlot := ws.foldl (fun slot w => max slot (u64SatAdd w.requestedAt 1)) m.lastCheckedSlot }

end WithdrawalMonitor

/-- Where the egress loop stands; `todo` is what is left of the withdrawals listed to it. -/
inductive EgressPhase where
  | idle
  | serving (todo : List WithdrawalRecord)
  | recording (w : WithdrawalRecord) (hash : String) (todo : List WithdrawalRecord)
  | prepared (w : WithdrawalRecord) (hash : String) (todo : List WithdrawalRecord)
  | sending (w : WithdrawalRecord) (hash : String) (todo : List WithdrawalRecord)
  | waiting (w : WithdrawalRecord) (sentHash : String) (todo : List WithdrawalRecord)
  | submitting (w : WithdrawalRecord) (hash : String) (gateway : List UInt8) (todo : List WithdrawalRecord)
  | submitted (w : WithdrawalRecord) (todo : List WithdrawalRecord)
  | marking (todo : List WithdrawalRecord)
  | ended

structure EgressLoop where
  store : RelayerCheckpoints
  monitor : WithdrawalMonitor
  phase : EgressPhase

/-- One round of `wait_for_receipt_confirmation`; `currentBlock` is absent if it could not be read. -/
inductive Poll where
  | failed
  | timedOut
  | missing
  | found (receipt : Receipt) (currentBlock : Option Nat)
deriving DecidableEq

inductive EgressInput where
  | pending (answer : Option (List WithdrawalRecord))
  | serve (signedHash : Option String) (written : Bool)
  | rename (succeeds : Bool)
  | send
  | sendAnswer (answer : Option String)
  | poll (answer : Poll)
  | submit
  | completionAnswer (accepted written : Bool)

inductive Observation where
  | signed (w : WithdrawalRecord) (hash : String)
  | sent (withdrawalId : Nat) (hash : String)
  | polled (hash : String) (receipt : Receipt) (currentBlock : Nat)
  | completion (record : WithdrawalCompletionRecord)
deriving DecidableEq

namespace EgressLoop

variable (cfg : Config)

def saved (l : EgressLoop) : EgressLoop := { l with store := { l.store with egress := l.monitor.checkpoint } }

/-- The next withdrawal of the list. `signedHash` is absent if something fails before the transfer is signed. -/
def serve (d : Disk) (l : EgressLoop) (w : WithdrawalRecord) (todo : List WithdrawalRecord) (signedHash : Option String)
    (written : Bool) : Disk × EgressLoop × Option Observation :=
  if w.withdrawalId ∈ l.monitor.processedWithdrawals then (d, { l with phase := .serving todo }, none)
  else
    match l.monitor.externalTxHashes w.withdrawalId with
    -- a recorded hash stands for a transfer that was made: neither sent nor looked up again
    | some existing => (d, { l with phase := .submitting w existing [] todo }, none)
    | none =>
      match executable cfg w, signedHash with
      | true, some hash =>
        let l := { l with
          monitor := l.monitor.recordExternalTx w.withdrawalId hash
          phase := if written then .recording w hash todo else .serving todo }.saved
        (d.write l.store written, l, some (.signed w hash))
      | _, _ => (d, { l with phase := .serving todo }, none)

def poll (d : Disk) (l : EgressLoop) (w : WithdrawalRecord) (hash : String) (todo : List WithdrawalRecord) :
    Poll → Disk × EgressLoop × Option Observation
  | .failed | .timedOut => (d, { l with phase := .serving todo }, none)
  | .missing => (d, l, none)
  | .found receipt current =>
    if receipt.status = some "0x1" then
      match receipt.blockNumber, current with
      | some block, some current =>
        let phase :=
          if confirmed cfg block current then
            if releaseReported cfg w receipt then .submitting w hash (completionGatewayAddress cfg w) todo
            else .serving todo
          else l.phase
        (d, { l with phase }, some (.polled hash receipt current))
      | _, _ => (d, { l with phase := .serving todo }, none)
    else (d, { l with phase := .serving todo }, none)

/-- One step of `monitor_egress`. An input the loop does not wait for changes nothing. -/
def step (d : Disk) (l : EgressLoop) : EgressInput → Disk × EgressLoop × Option Observation
  | .pending answer =>
    match l.phase, answer with
    | .idle, some ws => (d, { l with monitor := l.monitor.noteSlots ws, phase := .serving ws }, none)
    | _, _ => (d, l, none)
  | .serve signedHash written =>
    match l.phase with
    | .serving (w :: todo) => l.serve cfg d w todo signedHash written
    | .serving [] => (d, { l with phase := .idle }, none)
    | _ => (d, l, none)
  | .rename succeeds =>
    match l.phase, d.rename succeeds with
    | .recording w hash todo, some d => (d, { l with phase := .prepared w hash todo }, none)
    | .recording _ _ todo, none => (d, { l with phase := .serving todo }, none)
    | .marking todo, some d => (d, { l with phase := .serving todo }, none)
    | .marking _, none => (d, { l with phase := .ended }, none)
    | _, _ => (d, l, none)
  | .send =>
    match l.phase with
    | .prepared w hash todo => (d, { l with phase := .sending w hash todo }, some (.sent w.withdrawalId hash))
    | _ => (d, l, none)
  | .sendAnswer answer =>
    match l.phase, answer with
    -- the hash that is looked up is the one in the answer
    | .sending w _ todo, some sentHash => (d, { l with phase := .waiting w sentHash todo }, none)
    | .sending _ _ todo, none => (d, { l with phase := .serving todo }, none)
    | _, _ => (d, l, none)
  | .poll answer =>
    match l.phase with
    | .waiting w hash todo => l.poll cfg d w hash todo answer
    | _ => (d, l, none)
  | .submit =>
    match l.phase with
    | .submitting w hash gateway todo =>
      match signWithdrawalCompletion cfg w hash gateway with
      | some completion => (d, { l with phase := .submitted w todo }, some (.completion completion))
      | none => (d, { l with phase := .serving todo }, none)
    | _ => (d, l, none)
  | .completionAnswer accepted written =>
    match l.phase with
    | .submitted w todo =>
      if accepted then
        let l := { l with
          monitor := l.monitor.markProcessed w.withdrawalId
          phase := if written then .marking todo else .ended }.saved
        (d.write l.store written, l, none)
      else (d, { l with phase := .serving todo }, none)
    | _ => (d, l, none)

end EgressLoop

structure ChainMonitor where
  lastScannedBlock : Nat
  processedDeposits : Finset String

namespace ChainMonitor

def restoreCheckpoint (c : ChainCheckpoint) : ChainMonitor := ⟨c.lastScannedBlock, c.processedDeposits⟩

variable (m : ChainMonitor)

def checkpoint : ChainCheckpoint := ⟨m.lastScannedBlock, m.processedDeposits⟩

def markProcessed (deposit : String) : ChainMonitor :=
  { m with processedDeposits := insert deposit m.processedDeposits }

def advanceCheckpoint (finalizedBlock : Nat) : ChainMonitor :=
  { m with lastScannedBlock := max m.lastScannedBlock finalizedBlock }

end ChainMonitor

inductive IngressPhase where
  | idle
  | submitting (todo : List String) (finalizedBlock : Nat) (allSubmitted : Bool)
  | marking (todo : List String) (finalizedBlock : Nat) (allSubmitted : Bool)
  | finishing
  | ended

structure IngressLoop where
  store : RelayerCheckpoints
  monitor : ChainMonitor
  phase : IngressPhase

/-- `scanned` carries the ids of the deposits found and the finalised block. -/
inductive IngressInput where
  | scanned (answer : Option (List String × Nat))
  | submit (accepted written : Bool)
  | finish (written : Bool)
  | rename (succeeds : Bool)

def IngressPhase.saving : IngressPhase → Bool
  | .marking _ _ _ | .finishing => true
  | _ => false

namespace IngressLoop

def saved (chain : String) (l : IngressLoop) : IngressLoop :=
  { l with store := { l.store with chains := update l.store.chains chain l.monitor.checkpoint } }

def step (chain : String) (d : Disk) (l : IngressLoop) : IngressInput → Disk × IngressLoop
  | .scanned answer =>
    match l.phase, answer with
    | .idle, some (deposits, finalizedBlock) => (d, { l with phase := .submitting deposits finalizedBlock true })
    | _, _ => (d, l)
  | .submit accepted written =>
    match l.phase with
    | .submitting (deposit :: todo) finalizedBlock allSubmitted =>
      if deposit ∈ l.monitor.processedDeposits then (d, { l with phase := .submitting todo finalizedBlock allSubmitted })
      else if accepted then
        let l := { l with
          monitor := l.monitor.markProcessed deposit
          phase := if written then .marking todo finalizedBlock allSubmitted else .ended }.saved chain
        (d.write l.store written, l)
      else (d, { l with phase := .submitting todo finalizedBlock false })
    | _ => (d, l)
  | .finish written =>
    match l.phase with
    | .submitting [] finalizedBlock allSubmitted =>
      let l := { l with
        monitor := if allSubmitted then l.monitor.advanceCheckpoint finalizedBlock else l.monitor
        phase := if written then .finishing else .ended }.saved chain
      (d.write l.store written, l)
    | _ => (d, l)
  | .rename succeeds =>
    match l.phase, d.rename succeeds with
    | .marking todo finalizedBlock allSubmitted, some d =>
      (d, { l with phase := .submitting todo finalizedBlock allSubmitted })
    | .finishing, some d => (d, { l with phase := .idle })
    | .marking _ _ _, none | .finishing, none => (d, { l with phase := .ended })
    | _, _ => (d, l)

inductive Move (chain : String) (d : Disk) (l : IngressLoop) : IngressInput → Disk → IngressLoop → Prop where
  | quiet {input : IngressInput} {l' : IngressLoop} (store : l'.store = l.store) (monitor : l'.monitor = l.monitor)
      (saving : l'.phase.saving = true → l.phase.saving = true) : Move chain d l input d l'
  | wrote {input : IngressInput} {l' : IngressLoop} (written : Bool)
      (store : l'.store = { l.store with chains := update l.store.chains chain l'.monitor.checkpoint })
      (monitor : l.monitor.processedDeposits ⊆ l'.monitor.processedDeposits) :
        Move chain d l input (d.write l'.store written) l'
  | renamed {l' : IngressLoop} {after : Disk} (saving : l.phase.saving = true) (done : d.rename true = some after)
      (store : l'.store = l.store) (monitor : l'.monitor = l.monitor) (saved : l'.phase.saving = false) :
      Move chain d l (.rename true) after l'

variable (chain : String) (d : Disk) (l : IngressLoop)

theorem rename_move (succeeds : Bool) :
    Move chain d l (.rename succeeds) (l.step chain d (.rename succeeds)).1 (l.step chain d (.rename succeeds)).2 := by
  cases done : d.rename succeeds with
  | none =>
    cases phase : l.phase <;> simp only [step, phase, done] <;> exact .quiet rfl rfl (by simp [IngressPhase.saving, phase])
  | some after =>
    obtain ⟨rfl, -⟩ := Disk.rename_some done
    cases phase : l.phase with
    | marking todo finalizedBlock allSubmitted =>
      simp only [step, phase, done]
      exact .renamed (by rw [phase]; rfl) done rfl rfl rfl
    | finishing =>
      simp only [step, phase, done]
      exact .renamed (by rw [phase]; rfl) done rfl rfl rfl
    | _ => simp only [step, phase, done]; exact .quiet rfl rfl id

theorem submit_move (accepted written : Bool) : Move chain d l (.submit accepted written)
    (l.step chain d (.submit accepted written)).1 (l.step chain d (.submit accepted written)).2 := by
  cases phase : l.phase with
  | submitting todo finalizedBlock allSubmitted =>
    cases todo with
    | nil => simp only [step, phase]; exact .quiet rfl rfl id
    | cons deposit todo =>
      simp only [step, phase]
      by_cases processed : deposit ∈ l.monitor.processedDeposits
      · simp only [processed, if_true]
        exact .quiet rfl rfl (fun saving => (by cases saving))
      · simp only [processed, if_false]
        cases accepted with
        | false => exact .quiet rfl rfl (fun saving => (by cases saving))
        | true => exact .wrote written rfl (Finset.subset_insert _ _)
  | _ => simp only [step, phase]; exact .quiet rfl rfl id

theorem step_move (input : IngressInput) : Move chain d l input (l.step chain d input).1 (l.step chain d input).2 := by
  cases input with
  | scanned answer =>
    cases phase : l.phase with
    | idle =>
      cases answer with
      | none => simp only [step, phase]; exact .quiet rfl rfl id
      | some scan => simp only [step, phase]; exact .quiet rfl rfl (fun saving => (by cases saving))
    | _ => simp only [step, phase]; exact .quiet rfl rfl id
  | submit accepted written => exact submit_move chain d l accepted written
  | finish written =>
    cases phase : l.phase with
    | submitting todo finalizedBlock allSubmitted =>
      cases todo with
      | nil =>
        simp only [step, phase]
        exact .wrote written rfl (by cases allSubmitted <;> exact Finset.Subset.refl _)
      | cons deposit todo => simp only [step, phase]; exact .quiet rfl rfl id
    | _ => simp only [step, phase]; exact .quiet rfl rfl id
  | rename succeeds => exact rename_move chain d l succeeds

end IngressLoop

/-- The process, its files, and what it did so far, newest first. A loop is absent before it starts and after a crash. -/
structure Process where
  disk : Disk
  egress : Option EgressLoop
  ingress : String → Option IngressLoop
  history : List Observation

inductive Input where
  | startEgress
  | startIngress (chain : String)
  | egress (input : EgressInput)
  | ingress (chain : String) (input : IngressInput)
  | crash

namespace Process

def fresh : Process := ⟨⟨.default, none⟩, none, fun _ => none, []⟩

def step (cfg : Config) (r : Process) : Input → Process
  | .startEgress =>
    match r.egress with
    | none => { r with egress := some ⟨r.disk.file, .restoreCheckpoint r.disk.file.egress, .idle⟩ }
    | some _ => r
  | .startIngress chain =>
    match r.ingress chain with
    | none =>
      let l : IngressLoop := ⟨r.disk.file, .restoreCheckpoint (r.disk.file.chains chain), .idle⟩
      { r with ingress := update r.ingress chain (some l) }
    | some _ => r
  | .egress input =>
    match r.egress with
    | none => r
    | some l =>
      let (disk, l, seen) := l.step cfg r.disk input
      { r with disk, egress := some l, history := seen.toList ++ r.history }
  | .ingress chain input =>
    match r.ingress chain with
    | none => r
    | some l =>
      let (disk, l) := l.step chain r.disk input
      { r with disk, ingress := update r.ingress chain (some l) }
  -- both files survive, and nothing reads the temporary one
  | .crash => { r with egress := none, ingress := fun _ => none }

end Process

end AceChain.Relayer
