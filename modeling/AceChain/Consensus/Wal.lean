import AceChain.Consensus.Calls

namespace AceChain.Consensus

inductive WalEntry where
  | proposal (height round : Nat) (blockHash : Hash)
  | prevote (height round : Nat) (blockHash : Hash)
  | precommit (height round : Nat) (blockHash : Hash)
  | lock (height round : Nat) (blockHash : Hash)
  | heightAdvance (newHeight : Nat)
deriving DecidableEq

structure WalRecovery where
  height : Nat
  lockedRound : Option Nat
  lockedHash : Option Hash
  prevotedRound : Option Nat
  prevotedHash : Option Hash
  precommittedRound : Option Nat
  precommittedHash : Option Hash
deriving DecidableEq

def WalRecovery.default : WalRecovery := ⟨0, none, none, none, none, none, none⟩

def WalRecovery.read (recovery : WalRecovery) : WalEntry → WalRecovery
  | .heightAdvance newHeight => { WalRecovery.default with height := newHeight }
  | .lock height round blockHash =>
    if recovery.height ≤ height then
      { recovery with height := height, lockedRound := some round, lockedHash := some blockHash }
    else recovery
  | .prevote height round blockHash =>
    if recovery.height ≤ height then
      { recovery with height := height, prevotedRound := some round, prevotedHash := some blockHash }
    else recovery
  | .precommit height round blockHash =>
    if recovery.height ≤ height then
      { recovery with height := height, precommittedRound := some round, precommittedHash := some blockHash }
    else recovery
  | .proposal height _ _ => if recovery.height ≤ height then { recovery with height := height } else recovery

def WalEntry.height : WalEntry → Nat
  | .proposal height _ _ | .prevote height _ _ | .precommit height _ _ | .lock height _ _ => height
  | .heightAdvance newHeight => newHeight

def WalEntry.isAdvance : WalEntry → Bool
  | .heightAdvance _ => true
  | _ => false

inductive WalKind where
  | lock
  | prevote
  | precommit
deriving DecidableEq

def WalEntry.recorded (kind : WalKind) (entry : WalEntry) : Option (Nat × Nat × Hash) :=
  match kind, entry with
  | .lock, .lock height round blockHash => some (height, round, blockHash)
  | .prevote, .prevote height round blockHash => some (height, round, blockHash)
  | .precommit, .precommit height round blockHash => some (height, round, blockHash)
  | _, _ => none

def WalRecovery.recorded (recovery : WalRecovery) : WalKind → Option Nat × Option Hash
  | .lock => (recovery.lockedRound, recovery.lockedHash)
  | .prevote => (recovery.prevotedRound, recovery.prevotedHash)
  | .precommit => (recovery.precommittedRound, recovery.precommittedHash)

abbrev ConsensusWal := List WalEntry

namespace ConsensusWal

open WalEntry

variable (wal : ConsensusWal)

def write (entry : WalEntry) : ConsensusWal := wal ++ [entry]

def truncate (_ : ConsensusWal) : ConsensusWal := []

def recover : WalRecovery := wal.foldl WalRecovery.read .default

def greatestHeight : Nat := (wal.map WalEntry.height).foldr max ⊥

def records (kind : WalKind) (wal : ConsensusWal) : List (Nat × Nat × Hash) := wal.filterMap (recorded kind)

def newest (records : List (Nat × Nat × Hash)) : Option Nat × Option Hash :=
  (records.getLast?.map (·.2.1), records.getLast?.map (·.2.2))

def sinceAdvance : ConsensusWal :=
  wal.foldl (fun since entry => if entry.isAdvance then [] else since ++ [entry]) []

/-- Recovery returns the greatest height and, of each kind, the most recent entry of that height. -/
structure HeightConsistent (wal : ConsensusWal) : Prop where
  height : wal.recover.height = wal.greatestHeight
  entries : ∀ kind, wal.recover.recorded kind = newest ((records kind wal).filter (·.1 = wal.greatestHeight))

variable {wal : ConsensusWal}

theorem read_later {recovery : WalRecovery} {entry : WalEntry} (later : recovery.height ≤ entry.height) :
    (recovery.read entry).height = entry.height ∧ ∀ kind, (recovery.read entry).recorded kind =
      if entry.isAdvance then (none, none) else
        ((entry.recorded kind).map (fun record => (some record.2.1, some record.2.2))).getD (recovery.recorded kind) := by
  cases entry with
  | heightAdvance newHeight => exact ⟨rfl, fun kind => by cases kind <;> rfl⟩
  | _ =>
    simp only [WalEntry.height] at later
    refine ⟨congrArg WalRecovery.height (if_pos later), fun kind => ?_⟩
    cases kind <;> simp [WalRecovery.read, WalRecovery.recorded, WalEntry.recorded, WalEntry.isAdvance, later]

theorem sinceAdvance_concat (wal : ConsensusWal) (entry : WalEntry) :
    sinceAdvance (wal ++ [entry]) = if entry.isAdvance then [] else sinceAdvance wal ++ [entry] := by
  simp [sinceAdvance]

theorem newest_concat (records : List (Nat × Nat × Hash)) (found : Option (Nat × Nat × Hash)) :
    newest (records ++ found.toList) = (found.map (fun record => (some record.2.1, some record.2.2))).getD
      (newest records) := by
  cases found <;> simp [newest]

theorem le_greatestHeight {entry : WalEntry} (member : entry ∈ wal) : entry.height ≤ greatestHeight wal :=
  List.le_max_of_le (List.mem_map_of_mem member) le_rfl

theorem greatestHeight_le {bound : Nat} (below : ∀ entry ∈ wal, entry.height ≤ bound) : greatestHeight wal ≤ bound :=
  List.max_le_of_forall_le _ _ (by simpa using below)

theorem sinceAdvance_suffix (wal : ConsensusWal) : sinceAdvance wal <:+ wal := by
  induction wal using List.reverseRecOn with
  | nil => exact List.suffix_rfl
  | append_singleton wal entry ih =>
    rw [sinceAdvance_concat]
    split
    · exact List.nil_suffix
    · obtain ⟨before, whole⟩ := ih
      exact ⟨before, by rw [← List.append_assoc, whole]⟩

theorem recover_sorted (sorted : wal.Pairwise (fun a b => a.height ≤ b.height)) :
    (recover wal).height = greatestHeight wal ∧
      ∀ kind, (recover wal).recorded kind = newest (records kind (sinceAdvance wal)) := by
  induction wal using List.reverseRecOn with
  | nil => exact ⟨rfl, fun kind => by cases kind <;> rfl⟩
  | append_singleton wal entry ih =>
    rw [List.pairwise_append] at sorted
    obtain ⟨height, kinds⟩ := ih sorted.1
    have older : ∀ old ∈ wal, old.height ≤ entry.height := fun old member => sorted.2.2 old member entry (by simp)
    have top : greatestHeight (wal ++ [entry]) = entry.height := by
      refine le_antisymm (greatestHeight_le (fun old member => ?_)) (le_greatestHeight (by simp))
      rcases List.mem_append.mp member with before | here
      · exact older old before
      · rw [List.mem_singleton.mp here]
    have rises : (recover wal).height ≤ entry.height := height ▸ greatestHeight_le older
    obtain ⟨next, kept⟩ := read_later rises
    have recovered : recover (wal ++ [entry]) = (recover wal).read entry := List.foldl_concat ..
    rw [recovered, top, sinceAdvance_concat]
    refine ⟨next, fun kind => ?_⟩
    rw [kept]
    split
    · rfl
    have last : records kind (sinceAdvance wal ++ [entry]) = records kind (sinceAdvance wal) ++
        (entry.recorded kind).toList := by
      cases found : entry.recorded kind <;> simp [records, found]
    rw [last, newest_concat, kinds]

theorem newest_eq_none {records : List (Nat × Nat × Hash)} : newest records = (none, none) ↔ records = [] := by
  cases records using List.reverseRecOn <;> simp [newest]

/-- Of records whose heights never fall, a later part ends with the last one of the greatest height just if there is one
and the part is not empty, or neither. -/
theorem newest_suffix_iff {records part : List (Nat × Nat × Hash)} {top : Nat} (suffix : part <:+ records)
    (sorted : records.Pairwise (fun r r' => r.1 ≤ r'.1)) (below : ∀ r ∈ records, r.1 ≤ top) :
    newest part = newest (records.filter (·.1 = top)) ↔ ((∃ r ∈ records, r.1 = top) ↔ part ≠ []) := by
  obtain ⟨before, rfl⟩ := suffix
  cases part using List.reverseRecOn with
  | nil =>
    have none_ : newest [] = (none, none) := rfl
    rw [none_, eq_comm, newest_eq_none, List.filter_eq_nil_iff, List.append_nil]
    simp only [decide_eq_true_eq, ne_eq, not_true_eq_false, iff_false, not_exists, not_and]
  | append_singleton part last =>
    rw [← List.append_assoc] at sorted below ⊢
    have ends : newest (part ++ [last]) = (some last.2.1, some last.2.2) := newest_concat part (some last)
    rw [ends]
    by_cases highest : last.1 = top
    · have kept : (before ++ part ++ [last]).filter (·.1 = top) = (before ++ part).filter (·.1 = top) ++
        (some last).toList := by
        simp [highest]
      rw [kept, newest_concat]
      exact iff_of_true rfl (iff_of_true ⟨last, by simp, highest⟩ (by simp))
    · -- Everything before the last record is no higher than it, so nothing reaches the top.
      have absent : ∀ r ∈ before ++ part ++ [last], r.1 ≠ top := by
        intro r member same
        have bound := below last (by simp)
        rcases List.mem_append.mp member with old | here
        · have order := (List.pairwise_append.mp sorted).2.2 r old last (by simp)
          omega
        · exact highest (List.mem_singleton.mp here ▸ same)
      have empty : (before ++ part ++ [last]).filter (·.1 = top) = [] := by
        rw [List.filter_eq_nil_iff]
        intro r member
        simpa using absent r member
      rw [empty]
      refine iff_of_false (by simp [newest]) (fun both => ?_)
      obtain ⟨r, member, same⟩ := both.mpr (by simp)
      exact absent r member same

theorem recorded_height {kind : WalKind} {entry : WalEntry} {record : Nat × Nat × Hash}
    (found : entry.recorded kind = some record) : record.1 = entry.height := by
  cases kind <;> cases entry <;> cases found <;> rfl

/-- For logs whose heights never fall, recovery is height consistent exactly when, of each kind, an entry of the
greatest height is in the log just if an entry of the kind stands behind the last height advance. -/
theorem recover_heightConsistent_iff (wal : ConsensusWal) (sorted : wal.Pairwise (fun a b => a.height ≤ b.height)) :
    HeightConsistent wal ↔
      ∀ kind, (∃ r ∈ records kind wal, r.1 = greatestHeight wal) ↔ records kind (sinceAdvance wal) ≠ [] := by
  obtain ⟨height, kinds⟩ := recover_sorted sorted
  have order : ∀ kind, (records kind wal).Pairwise (fun r r' => r.1 ≤ r'.1) := by
    intro kind
    refine List.Pairwise.filterMap _ (fun entry entry' before r found r' found' => ?_) sorted
    rw [recorded_height found, recorded_height found']
    exact before
  have below : ∀ kind, ∀ r ∈ records kind wal, r.1 ≤ greatestHeight wal := by
    intro kind r member
    obtain ⟨entry, inside, found⟩ := List.mem_filterMap.mp member
    rw [recorded_height found]
    exact le_greatestHeight inside
  have each := fun kind => newest_suffix_iff ((sinceAdvance_suffix wal).filterMap (recorded kind)) (order kind) (below kind)
  constructor
  · intro consistent kind
    exact (each kind).mp ((kinds kind).symm.trans (consistent.entries kind))
  · intro clean
    exact ⟨height, fun kind => (kinds kind).trans ((each kind).mpr (clean kind))⟩

theorem advanced_lock_dropped : HeightConsistent [.lock 5 0 7, .heightAdvance 6, .prevote 6 1 9] := by
  apply (recover_heightConsistent_iff [.lock 5 0 7, .heightAdvance 6, .prevote 6 1 9] (by decide)).mpr
  intro kind
  cases kind <;> decide

/-- Without an entry for the advance, the lock of height 5 is returned as one of height 6. -/
theorem earlier_lock_survives :
    ([.lock 5 0 7, .prevote 6 1 9] : ConsensusWal).Pairwise (fun a b => a.height ≤ b.height) ∧
      (recover [.lock 5 0 7, .prevote 6 1 9]).height = 6 ∧ (recover [.lock 5 0 7, .prevote 6 1 9]).lockedHash = some 7 ∧
      ¬HeightConsistent [.lock 5 0 7, .prevote 6 1 9] := by
  refine ⟨by decide, rfl, rfl, fun consistent => ?_⟩
  have lock := consistent.entries .lock
  revert lock
  decide

end ConsensusWal

end AceChain.Consensus
