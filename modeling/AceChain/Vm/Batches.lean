import AceChain.Vm.Scheduler
import Mathlib.Data.List.Basic
import Mathlib.Data.List.Pairwise

namespace AceChain.Vm.Scheduler

open AceChain.Runtime Node Batch List

section

variable {bookAccount : Hash → AccountId} {ids : List AccountId} {tx : Transaction}

theorem transferWriteSet_mem (set : transferWriteSet tx = .accounts ids) :
    tx.sender ∈ ids ∧ (49 ≤ tx.payload.length → accountAt tx.payload 9 ∈ ids) ∧
      (¬ 49 ≤ tx.payload.length → 41 ≤ tx.payload.length → accountAt tx.payload 1 ∈ ids) := by
  unfold transferWriteSet at set
  by_cases long : 49 ≤ tx.payload.length
  · simp only [if_pos long, if_pos (show 9 + 32 ≤ tx.payload.length by omega)] at set
    cases set
    exact ⟨mem_insert_of_mem (mem_singleton_self _), fun _ => mem_insert_self, fun less => absurd long less⟩
  · simp only [if_neg long] at set
    by_cases short : 1 + 32 ≤ tx.payload.length
    · rw [if_pos short] at set
      cases set
      exact ⟨mem_insert_of_mem (mem_singleton_self _), fun more => absurd more long,
        fun _ _ => mem_insert_self⟩
    · rw [if_neg short] at set
      cases set
      exact ⟨mem_singleton_self _, fun more => absurd more long, fun _ more => by omega⟩

theorem mem_declaredAccounts {payload : List UInt8} {n cursor : Nat} {id : AccountId}
    (member : id ∈ ids) : id ∈ declaredAccounts payload n cursor ids := by
  induction n generalizing cursor ids with
  | zero => exact member
  | succ n ih =>
    rw [declaredAccounts]
    by_cases cut : payload.length < cursor + 34
    · rw [if_pos cut]
      exact member
    · rw [if_neg cut]
      exact ih (mem_insert_of_mem member)

theorem sender_mem_invokeWriteSet (set : invokeWriteSet tx = .accounts ids) : tx.sender ∈ ids := by
  unfold invokeWriteSet at set
  split at set <;> rename_i short
  · cases set
  cases set
  exact mem_declaredAccounts (mem_singleton_self _)

theorem liquidWriteSet_ok (set : liquidWriteSet bookAccount tx = .accounts ids) :
    (tx.payload.getD 1 0 = 0x02 ∨ tx.payload.getD 1 0 = 0x03) ∧ tx.sender ∈ ids ∧
      bookAccount (beHash (slice tx.payload 10 32)) ∈ ids := by
  unfold liquidWriteSet at set
  by_cases order : 42 ≤ tx.payload.length ∧ (tx.payload.getD 1 0 = 0x02 ∨ tx.payload.getD 1 0 = 0x03)
  · rw [if_pos order] at set
    cases set
    exact ⟨order.2, mem_insert_of_mem (mem_singleton_self _), mem_insert_self⟩
  · rw [if_neg order] at set
    cases set

theorem extractWriteSet_liquid (opcode : tx.payload.head? = some opLiquid) :
    extractWriteSet bookAccount tx = liquidWriteSet bookAccount tx := by
  unfold extractWriteSet
  rw [opcode]
  rfl

theorem mem_outputRecipients {payload : List UInt8} {n cursor : Nat} {id : AccountId} {found : List AccountId}
    (listed : outputRecipients payload n cursor found = some ids) (member : id ∈ found) : id ∈ ids := by
  induction n generalizing cursor found with
  | zero =>
    cases listed
    exact member
  | succ n ih =>
    have kept : id ∈ found.insert (accountAt payload cursor) := mem_insert_of_mem member
    rw [outputRecipients] at listed
    split at listed
    · cases listed
    dsimp only at listed
    split at listed
    · cases listed
      exact kept
    split at listed
    · cases listed
      exact kept
    · exact ih listed kept

theorem sender_mem_spendWriteSet (set : spendWriteSet tx = .accounts ids) : tx.sender ∈ ids := by
  have alone : tx.sender ∈ [tx.sender] := mem_singleton_self _
  unfold spendWriteSet at set
  split at set
  · cases set
  split at set
  · cases set
    exact alone
  split at set
  · cases set
  split at set
  · cases set
    exact alone
  split at set <;> rename_i listed
  · cases set
  · cases set
    exact mem_outputRecipients listed alone

theorem sender_mem_createWriteSet (set : createWriteSet tx = .accounts ids) : tx.sender ∈ ids := by
  unfold createWriteSet at set
  split at set
  · cases set
    exact mem_insert_of_mem (mem_singleton_self _)
  · cases set
    exact mem_singleton_self _

theorem sender_mem_moveWriteSet (set : moveWriteSet tx = .accounts ids) : tx.sender ∈ ids := by
  unfold moveWriteSet at set
  dsimp only at set
  split at set
  · cases set
  split at set
  · cases set
  split at set
  · cases set
    exact mem_insert_of_mem (mem_singleton_self _)
  · cases set

theorem of_ite_eq {c P : Prop} [Decidable c] {a b w : WriteSet} (left : a = w → P) (right : b = w → P) :
    (if c then a else b) = w → P := by
  split
  · exact left
  · exact right

theorem sender_mem_extractWriteSet (set : extractWriteSet bookAccount tx = .accounts ids) : ids = [] ∨ tx.sender ∈ ids := by
  have unbounded : WriteSet.global = .accounts ids → ids = [] ∨ tx.sender ∈ ids := fun same => by cases same
  have alone : WriteSet.accounts [tx.sender] = .accounts ids → ids = [] ∨ tx.sender ∈ ids := by
    intro same
    cases same
    exact .inr (mem_singleton_self _)
  have empty : WriteSet.accounts [] = .accounts ids → ids = [] ∨ tx.sender ∈ ids := by
    intro same
    cases same
    exact .inl rfl
  revert set
  unfold extractWriteSet
  cases tx.payload.head? with
  | none => exact empty
  | some opcode =>
    refine of_ite_eq (fun set => .inr (transferWriteSet_mem set).1) ?_
    refine of_ite_eq (fun set => .inr (sender_mem_createWriteSet set)) ?_
    refine of_ite_eq unbounded ?_
    refine of_ite_eq (fun set => .inr (sender_mem_invokeWriteSet set)) ?_
    refine of_ite_eq alone ?_
    refine of_ite_eq (fun set => .inr (sender_mem_spendWriteSet set)) ?_
    refine of_ite_eq alone ?_
    refine of_ite_eq unbounded ?_
    refine of_ite_eq unbounded ?_
    refine of_ite_eq (fun set => .inr (liquidWriteSet_ok set).2.1) ?_
    refine of_ite_eq alone ?_
    refine of_ite_eq unbounded ?_
    exact of_ite_eq (fun set => .inr (sender_mem_moveWriteSet set)) empty

end

variable {writeSet : Transaction → WriteSet} {txs : List Transaction} {index earliest at_ : Nat} {ws w : WriteSet}
  {b b' : Batch}
  {batches batches' : List Batch}

theorem conflictsWith_comm (ws w : WriteSet) : conflictsWith ws w = conflictsWith w ws := by
  cases ws with
  | global => cases w <;> rfl
  | accounts ids =>
    cases w with
    | global => rfl
    | accounts others =>
      unfold conflictsWith
      rw [Bool.eq_iff_iff, any_eq_true, any_eq_true]
      simp only [contains_iff_mem]
      constructor
      · rintro ⟨id, first, second⟩
        exact ⟨id, second, first⟩
      · rintro ⟨id, first, second⟩
        exact ⟨id, second, first⟩

theorem conflictsWith_eq_false : conflictsWith ws w = false ↔
    ∃ ids others, ws = .accounts ids ∧ w = .accounts others ∧ ∀ id ∈ ids, id ∉ others := by
  cases ws with
  | global =>
    constructor
    · intro free
      cases w <;> cases free
    · rintro ⟨ids, others, same, -⟩
      cases same
  | accounts ids =>
    cases w with
    | global =>
      constructor
      · intro free
        cases free
      · rintro ⟨ids, others, -, same, -⟩
        cases same
    | accounts others =>
      unfold conflictsWith
      simp

theorem conflictsWith_merged (ws w other : WriteSet) :
    conflictsWith (merged ws w) other = (conflictsWith ws other || conflictsWith w other) := by
  cases ws with
  | global => cases w <;> cases other <;> rfl
  | accounts first =>
    cases w with
    | global => cases other <;> simp [conflictsWith, merged]
    | accounts second =>
      cases other with
      | global => rfl
      | accounts others =>
        rw [Bool.eq_iff_iff]
        simp [conflictsWith, merged, or_and_right, exists_or]

theorem tryAdd_eq_some : b.tryAdd index ws = some b' ↔
    (b.txIndices = [] ∨ conflictsWith b.writeSetUnion ws = false) ∧
      b' = ⟨b.txIndices ++ [index], merged b.writeSetUnion ws⟩ := by
  unfold tryAdd
  split <;> rename_i full
  · simp [full.1, full.2]
  · have free : b.txIndices = [] ∨ conflictsWith b.writeSetUnion ws = false := by
      simpa [or_iff_not_imp_left] using full
    rw [Option.some.injEq]
    exact ⟨fun same => ⟨free, same.symm⟩, fun taken => taken.2.symm⟩

theorem place_eq_some (placed : place index ws batches earliest = some (at_, batches')) :
    ∃ b b', batches[at_]? = some b ∧ b.tryAdd index ws = some b' ∧ batches' = batches.set at_ b' ∧ earliest ≤ at_ ∧
      ∀ l c, earliest ≤ l → l < at_ → batches[l]? = some c → c.tryAdd index ws = none := by
  induction batches generalizing earliest at_ batches' with
  | nil => cases placed
  | cons b rest ih =>
    have later : (place index ws rest (earliest - 1)).map (fun placed => (placed.1 + 1, b :: placed.2)) =
        some (at_, batches') →
        (earliest = 0 → b.tryAdd index ws = none) →
        ∃ c c', (b :: rest)[at_]? = some c ∧ c.tryAdd index ws = some c' ∧ batches' = (b :: rest).set at_ c' ∧ earliest ≤ at_ ∧
          ∀ l d, earliest ≤ l → l < at_ → (b :: rest)[l]? = some d → d.tryAdd index ws = none := by
      intro found refused
      rw [Option.map_eq_some_iff] at found
      obtain ⟨⟨n, others⟩, inner, same⟩ := found
      cases same
      obtain ⟨c, c', held, taken, rfl, bound, passed⟩ := ih inner
      refine ⟨c, c', held, taken, rfl, by omega, ?_⟩
      intro l d from_ below there
      cases l with
      | zero =>
        cases there
        exact refused (by omega)
      | succ l => exact passed l d (by omega) (by omega) there
    rw [place] at placed
    split at placed <;> rename_i now
    · cases taken : b.tryAdd index ws with
      | none =>
        rw [taken] at placed
        exact later placed (fun _ => taken)
      | some b' =>
        rw [taken] at placed
        cases placed
        exact ⟨b, b', rfl, taken, rfl, by omega, fun l c _ below => by omega⟩
    · exact later placed (fun zero => absurd zero now)

theorem place_eq_none (refused : place index ws batches earliest = none) :
    ∀ l c, earliest ≤ l → batches[l]? = some c → c.tryAdd index ws = none := by
  induction batches generalizing earliest with
  | nil =>
    intro l c _ there
    cases there
  | cons b rest ih =>
    rw [place] at refused
    intro l c from_ there
    have later : place index ws rest (earliest - 1) = none → earliest ≤ l → 0 < l → c.tryAdd index ws = none := by
      intro none_ from_ positive
      cases l with
      | zero => omega
      | succ l => exact ih none_ l c (by omega) there
    split at refused <;> rename_i now
    · cases taken : b.tryAdd index ws with
      | some b' =>
        rw [taken] at refused
        cases refused
      | none =>
        rw [taken] at refused
        cases l with
        | zero =>
          cases there
          exact taken
        | succ l => exact later (Option.map_eq_none_iff.mp refused) from_ (Nat.succ_pos l)
    · exact later (Option.map_eq_none_iff.mp refused) from_ (by omega)

def Batch.with (b : Batch) (index : Nat) (ws : WriteSet) : Batch := ⟨b.txIndices ++ [index], merged b.writeSetUnion ws⟩

def Plan.senderBound (p : Plan) (tx : Transaction) : Nat := ((p.senderLatest tx.sender).map (· + 1)).getD 0

/-- What the addition of a transaction does: it joins the batch `k`, or opens it behind the last one. Every batch that its
sender allows before `k` conflicts with it, and `k` does not. -/
theorem Plan.add_cases (p : Plan) (tx : Transaction) (index : Nat) (bounded : p.senderBound tx ≤ p.batches.length) :
    ∃ k ≤ p.batches.length, p.senderBound tx ≤ k ∧
      (∀ l, (p.add writeSet (tx, index)).batches[l]? =
        if l = k then some ((p.batches[k]?.getD .new).with index (writeSet tx)) else p.batches[l]?) ∧
      (p.add writeSet (tx, index)).senderLatest = Function.update p.senderLatest tx.sender (some k) ∧
      (∀ b, p.batches[k]? = some b → b.txIndices = [] ∨ conflictsWith b.writeSetUnion (writeSet tx) = false) ∧
      ∀ l b, p.senderBound tx ≤ l → l < k → p.batches[l]? = some b → conflictsWith b.writeSetUnion (writeSet tx) = true := by
  have conflict : ∀ b : Batch, b.tryAdd index (writeSet tx) = none → conflictsWith b.writeSetUnion (writeSet tx) = true := by
    intro b refused
    unfold tryAdd at refused
    split at refused
    · rename_i full
      exact full.2
    · cases refused
  generalize added : p.add writeSet (tx, index) = q
  unfold add at added
  dsimp only at added
  split at added
  · rename_i k batches' placed
    obtain ⟨b, b', held, taken, rfl, from_, passed⟩ := place_eq_some placed
    obtain ⟨free, rfl⟩ := tryAdd_eq_some.mp taken
    have inside : k < p.batches.length := (List.getElem?_eq_some_iff.mp held).1
    subst added
    refine ⟨k, inside.le, from_, ?_, rfl, ?_, fun l c from_ below there => conflict c (passed l c from_ below there)⟩
    · intro l
      rw [List.getElem?_set, held]
      by_cases same : l = k
      · rw [if_pos same.symm, if_pos inside, if_pos same]
        rfl
      · rw [if_neg (Ne.symm same), if_neg same]
    · intro c there
      rw [held] at there
      cases there
      exact free
  · rename_i refused
    subst added
    refine ⟨p.batches.length, le_rfl, bounded, ?_, rfl, ?_,
      fun l c from_ below there => conflict c (place_eq_none refused l c from_ there)⟩
    · intro l
      by_cases same : l = p.batches.length
      · rw [if_pos same, same, List.getElem?_concat_length, List.getElem?_eq_none le_rfl]
        rfl
      · rw [if_neg same]
        by_cases below : l < p.batches.length
        · rw [List.getElem?_append_left below]
        · rw [List.getElem?_eq_none (by rw [length_append, length_singleton]; omega),
            List.getElem?_eq_none (by omega)]
    · intro c there
      rw [List.getElem?_eq_none le_rfl] at there
      cases there

structure Batch.Sound (writeSet : Transaction → WriteSet) (txs : List Transaction) (n : Nat) (b : Batch) : Prop where
  below : ∀ i ∈ b.txIndices, i < n
  nodup : b.txIndices.Nodup
  apart : b.txIndices.Pairwise (fun i j => ∀ tx tx', txs[i]? = some tx → txs[j]? = some tx' →
    conflictsWith (writeSet tx) (writeSet tx') = false)
  covers : ∀ i ∈ b.txIndices, ∀ tx, txs[i]? = some tx → ∀ w, conflictsWith b.writeSetUnion w = false →
    conflictsWith (writeSet tx) w = false

variable {n : Nat} {tx : Transaction}

theorem Batch.Sound.free {i j : Nat} {tx' : Transaction} (sound : b.Sound writeSet txs n) (first : i ∈ b.txIndices)
    (second : j ∈ b.txIndices) (differ : i ≠ j) (found : txs[i]? = some tx) (found' : txs[j]? = some tx') :
    conflictsWith (writeSet tx) (writeSet tx') = false := by
  have symmetric : Std.Symm (fun i j : Nat => ∀ tx tx', txs[i]? = some tx → txs[j]? = some tx' →
      conflictsWith (writeSet tx) (writeSet tx') = false) := by
    constructor
    intro i j free tx tx' found found'
    rw [conflictsWith_comm]
    exact free tx' tx found' found
  exact sound.apart.forall first second differ tx tx' found found'

theorem Batch.Sound.mono {m : Nat} (sound : b.Sound writeSet txs n) (le : n ≤ m) : b.Sound writeSet txs m :=
  ⟨fun i member => (sound.below i member).trans_le le, sound.nodup, sound.apart, sound.covers⟩

theorem Batch.Sound.with (sound : b.Sound writeSet txs index) (found : txs[index]? = some tx)
    (free : b.txIndices = [] ∨ conflictsWith b.writeSetUnion (writeSet tx) = false) :
    (b.with index (writeSet tx)).Sound writeSet txs (index + 1) := by
  unfold Batch.with
  refine ⟨?_, ?_, ?_, ?_⟩
  · intro i member
    rcases List.mem_append.mp member with old | new
    · exact (sound.below i old).trans (Nat.lt_succ_self index)
    · rw [List.mem_singleton.mp new]
      exact Nat.lt_succ_self index
  · rw [nodup_append]
    refine ⟨sound.nodup, nodup_singleton index, ?_⟩
    intro i old j new
    rw [List.mem_singleton.mp new]
    exact (sound.below i old).ne
  · rw [pairwise_append]
    refine ⟨sound.apart, pairwise_singleton _ _, ?_⟩
    intro i old j new tx' tx'' first second
    rw [List.mem_singleton.mp new, found] at second
    cases second
    rcases free with empty | apart
    · rw [empty] at old
      cases old
    · exact sound.covers i old tx' first (writeSet tx) apart
  · intro i member tx' first w apart
    rw [conflictsWith_merged, Bool.or_eq_false_iff] at apart
    rcases List.mem_append.mp member with old | new
    · exact sound.covers i old tx' first w apart.1
    · rw [List.mem_singleton.mp new, found] at first
      cases first
      exact apart.2

theorem Batch.Sound.new : Sound writeSet txs n new where
  below i member := by cases member
  nodup := nodup_nil
  apart := List.Pairwise.nil
  covers i member := by cases member

def Holds (batches : List Batch) (k i : Nat) : Prop := ∃ b, batches[k]? = some b ∧ i ∈ b.txIndices

structure Plan.Built (writeSet : Transaction → WriteSet) (txs : List Transaction) (n : Nat) (p : Plan) : Prop where
  sound : ∀ b ∈ p.batches, b.Sound writeSet txs n
  nonempty : ∀ b ∈ p.batches, b.txIndices ≠ []
  covered : ∀ b ∈ p.batches, ∀ w, conflictsWith b.writeSetUnion w = true →
    ∃ i ∈ b.txIndices, ∃ tx, txs[i]? = some tx ∧ conflictsWith (writeSet tx) w = true
  placed : ∀ i < n, ∃ k, Holds p.batches k i
  unique : ∀ k l i, Holds p.batches k i → Holds p.batches l i → k = l
  bounded : ∀ sender m, p.senderLatest sender = some m → m < p.batches.length
  latest : ∀ k i tx, Holds p.batches k i → txs[i]? = some tx → ∃ m, p.senderLatest tx.sender = some m ∧ k ≤ m
  senders : ∀ i j k l tx tx', i < j → txs[i]? = some tx → txs[j]? = some tx' → tx.sender = tx'.sender →
    Holds p.batches k i → Holds p.batches l j → k < l

theorem Plan.empty_built : Plan.Built writeSet txs 0 ⟨[], fun _ => none⟩ where
  sound b member := by cases member
  nonempty b member := by cases member
  covered b member := by cases member
  placed i below := absurd below (Nat.not_lt_zero i)
  unique k l i first := by
    obtain ⟨b, found, -⟩ := first
    cases found
  bounded sender m latest := by cases latest
  latest k i tx held := by
    obtain ⟨b, found, -⟩ := held
    cases found
  senders i j k l tx tx' _ _ _ _ held := by
    obtain ⟨b, found, -⟩ := held
    cases found

variable {p : Plan}

theorem Plan.Built.senderBound_le (built : p.Built writeSet txs n) (tx : Transaction) :
    p.senderBound tx ≤ p.batches.length := by
  unfold senderBound
  cases latest : p.senderLatest tx.sender with
  | none => exact Nat.zero_le _
  | some m => exact built.bounded tx.sender m latest

theorem Plan.Built.below {k i : Nat} (built : p.Built writeSet txs n) (held : Holds p.batches k i) :
    i < n ∧ k < p.batches.length := by
  obtain ⟨b, found, member⟩ := held
  exact ⟨(built.sound b (mem_of_getElem? found)).below i member, (List.getElem?_eq_some_iff.mp found).1⟩

section Add

variable {p q : Plan} {k : Nat} {tx : Transaction} (set : ∀ l, q.batches[l]? =
  if l = k then some ((p.batches[k]?.getD .new).with index ws) else p.batches[l]?)

include set

theorem holds_of_set (l i : Nat) : Holds q.batches l i ↔ Holds p.batches l i ∨ l = k ∧ i = index := by
  unfold Holds
  rw [set l]
  by_cases same : l = k
  · subst same
    cases p.batches[l]? <;> simp [Batch.with, Batch.new, or_comm]
  · rw [if_neg same]
    simp [same]

theorem mem_of_set (member : b ∈ q.batches) : b ∈ p.batches ∨ b = (p.batches[k]?.getD .new).with index ws := by
  obtain ⟨l, found⟩ := List.mem_iff_getElem?.mp member
  rw [set l] at found
  by_cases same : l = k
  · rw [if_pos same] at found
    exact .inr (Option.some.inj found).symm
  · rw [if_neg same] at found
    exact .inl (mem_of_getElem? found)

theorem length_of_set : k < q.batches.length ∧ p.batches.length ≤ q.batches.length := by
  have here : q.batches[k]? = some ((p.batches[k]?.getD .new).with index ws) := by rw [set k, if_pos rfl]
  have inside : k < q.batches.length := (List.getElem?_eq_some_iff.mp here).1
  refine ⟨inside, ?_⟩
  by_contra shorter
  have last := set q.batches.length
  rw [List.getElem?_eq_none le_rfl, if_neg (by omega), List.getElem?_eq_getElem (by omega)] at last
  cases last

end Add

theorem Plan.Built.add (built : p.Built writeSet txs n) (found : txs[n]? = some tx) :
    (p.add writeSet (tx, n)).Built writeSet txs (n + 1) := by
  obtain ⟨k, le, from_, set, latest, free, -⟩ := p.add_cases tx n (built.senderBound_le tx)
  have holds := holds_of_set set
  have length := length_of_set set
  have fresh : ∀ l, ¬ Holds p.batches l n := fun l held => (Nat.lt_irrefl n) (built.below held).1
  -- the batch that the transaction joins, empty if it is opened
  have target : (p.batches[k]?.getD .new).Sound writeSet txs n ∧
      ((p.batches[k]?.getD .new).txIndices = [] ∨ conflictsWith (p.batches[k]?.getD .new).writeSetUnion (writeSet tx) =
        false) := by
    cases there : p.batches[k]? with
    | none => exact ⟨Batch.Sound.new, .inl rfl⟩
    | some b => exact ⟨built.sound b (mem_of_getElem? there), free b there⟩
  constructor
  · intro b member
    rcases mem_of_set set member with old | rfl
    · exact (built.sound b old).mono (Nat.le_succ n)
    · exact target.1.with found target.2
  · intro b member
    rcases mem_of_set set member with old | rfl
    · exact built.nonempty b old
    · simp [Batch.with]
  · intro b member w conflict
    rcases mem_of_set set member with old | rfl
    · exact built.covered b old w conflict
    have own : conflictsWith (writeSet tx) w = true →
        ∃ i ∈ ((p.batches[k]?.getD .new).with n (writeSet tx)).txIndices, ∃ tx, txs[i]? = some tx ∧
          conflictsWith (writeSet tx) w = true := fun conflict => ⟨n, by simp [Batch.with], tx, found, conflict⟩
    rw [Batch.with, conflictsWith_merged, Bool.or_eq_true] at conflict
    rcases conflict with before | now
    · cases there : p.batches[k]? with
      | none =>
        -- the union of a new batch conflicts with an unbounded write set only, as everything does
        rw [there] at before own
        apply own
        cases w with
        | global => cases writeSet tx <;> rfl
        | accounts ids => cases before
      | some b =>
        rw [there] at before
        obtain ⟨i, inside, tx', at_, conflict⟩ := built.covered b (mem_of_getElem? there) w before
        exact ⟨i, mem_append_left _ inside, tx', at_, conflict⟩
    · exact own now
  · intro i below
    by_cases same : i = n
    · exact ⟨k, (holds k i).mpr (.inr ⟨rfl, same⟩)⟩
    · obtain ⟨l, held⟩ := built.placed i (by omega)
      exact ⟨l, (holds l i).mpr (.inl held)⟩
  · intro l l' i first second
    rcases (holds l i).mp first with old | ⟨rfl, rfl⟩
    · rcases (holds l' i).mp second with old' | ⟨rfl, rfl⟩
      · exact built.unique l l' i old old'
      · exact absurd old (fresh l)
    · rcases (holds l' i).mp second with old' | ⟨rfl, -⟩
      · exact absurd old' (fresh l')
      · rfl
  · intro sender m last
    rw [latest, Function.update_apply] at last
    split at last
    · cases last
      exact length.1
    · exact (built.bounded sender m last).trans_le length.2
  · intro l i tx' held at_
    rw [latest, Function.update_apply]
    rcases (holds l i).mp held with old | ⟨rfl, rfl⟩
    · obtain ⟨m, last, bound⟩ := built.latest l i tx' old at_
      split <;> rename_i same
      · refine ⟨k, rfl, ?_⟩
        unfold senderBound at from_
        rw [← same, last] at from_
        change m + 1 ≤ k at from_
        omega
      · exact ⟨m, last, bound⟩
    · rw [found] at at_
      cases at_
      exact ⟨_, if_pos rfl, le_rfl⟩
  · intro i j l l' tx' tx'' less first second same held held'
    rcases (holds l' j).mp held' with old' | ⟨rfl, rfl⟩
    · rcases (holds l i).mp held with old | ⟨-, rfl⟩
      · exact built.senders i j l l' tx' tx'' less first second same old old'
      · exact absurd (built.below old').1 (by omega)
    · rw [found] at second
      cases second
      rcases (holds l i).mp held with old | ⟨-, rfl⟩
      · obtain ⟨m, last, bound⟩ := built.latest l i tx' old first
        unfold senderBound at from_
        rw [← same, last] at from_
        change m + 1 ≤ _ at from_
        omega
      · exact absurd less (Nat.lt_irrefl _)

def planOf (writeSet : Transaction → WriteSet) (txs : List Transaction) (n : Nat) : Plan :=
  (txs.zipIdx.take n).foldl (Plan.add writeSet) ⟨[], fun _ => none⟩

theorem planOf_succ (found : txs[n]? = some tx) :
    planOf writeSet txs (n + 1) = (planOf writeSet txs n).add writeSet (tx, n) := by
  obtain ⟨inside, same⟩ := List.getElem?_eq_some_iff.mp found
  have here : n < txs.zipIdx.length := by rw [length_zipIdx]; exact inside
  have entry : txs.zipIdx[n] = (tx, n) := by simp [same]
  unfold planOf
  rw [take_succ_eq_append_getElem here, foldl_append, entry]
  rfl

theorem planOf_length (writeSet : Transaction → WriteSet) (txs : List Transaction) :
    (planOf writeSet txs txs.length).batches = buildBatches writeSet txs := by
  unfold planOf buildBatches
  rw [take_of_length_le (by rw [length_zipIdx])]

theorem planOf_built (writeSet : Transaction → WriteSet) (txs : List Transaction) (le : n ≤ txs.length) :
    (planOf writeSet txs n).Built writeSet txs n := by
  induction n with
  | zero => exact Plan.empty_built
  | succ n ih =>
    have found : txs[n]? = some txs[n] := List.getElem?_eq_getElem (by omega)
    rw [planOf_succ found]
    exact (ih (by omega)).add found

theorem buildBatches_sound (writeSet : Transaction → WriteSet) (txs : List Transaction) :
    ∀ b ∈ buildBatches writeSet txs, b.Sound writeSet txs txs.length := by
  intro b member
  rw [← planOf_length] at member
  exact (planOf_built writeSet txs le_rfl).sound b member

def InOrder (writeSet : Transaction → WriteSet) (txs : List Transaction) (batches : List Batch) : Prop :=
  ∀ i j k l tx tx', i < j → txs[i]? = some tx → txs[j]? = some tx' → conflictsWith (writeSet tx) (writeSet tx') = true →
    Holds batches k i → Holds batches l j → k < l

/-- Before a batch that a transaction conflicts with, its sender leaves it no batch that it fits. -/
def Plan.NoGap (writeSet : Transaction → WriteSet) (p : Plan) (tx : Transaction) : Prop :=
  ∀ k l b c, p.senderBound tx ≤ l → l < k → p.batches[k]? = some b → p.batches[l]? = some c →
    conflictsWith b.writeSetUnion (writeSet tx) = true → conflictsWith c.writeSetUnion (writeSet tx) = true

theorem Plan.Built.inOrder_add (built : p.Built writeSet txs n)
    (found : txs[n]? = some tx) :
    InOrder writeSet txs (p.add writeSet (tx, n)).batches ↔ InOrder writeSet txs p.batches ∧ p.NoGap writeSet tx := by
  obtain ⟨k, le, from_, set, -, free, passed⟩ := p.add_cases tx n (built.senderBound_le tx)
  have holds := holds_of_set set
  constructor
  · intro ordered
    constructor
    · intro i j l l' tx' tx'' less first second conflict held held'
      exact ordered i j l l' tx' tx'' less first second conflict ((holds l i).mpr (.inl held)) ((holds l' j).mpr (.inl held'))
    · intro m l b c bound below there there' conflict
      -- otherwise the transaction went to `l` or before it, and one it conflicts with is in `m`
      by_contra fits
      have earlier : k ≤ l := by
        by_contra less
        exact fits (passed l c bound (by omega) there')
      obtain ⟨i, inside, tx', at_, clash⟩ := built.covered b (mem_of_getElem? there) (writeSet tx) conflict
      have old : Holds p.batches m i := ⟨b, there, inside⟩
      have order := ordered i n m k tx' tx (built.below old).1 at_ found clash ((holds m i).mpr (.inl old))
        ((holds k n).mpr (.inr ⟨rfl, rfl⟩))
      omega
  · rintro ⟨ordered, gap⟩ i j l l' tx' tx'' less first second conflict held held'
    rcases (holds l' j).mp held' with old' | ⟨rfl, rfl⟩
    · rcases (holds l i).mp held with old | ⟨-, rfl⟩
      · exact ordered i j l l' tx' tx'' less first second conflict old old'
      · exact absurd (built.below old').1 (by omega)
    · rw [found] at second
      cases second
      rcases (holds l i).mp held with old | ⟨-, rfl⟩
      · obtain ⟨b, there, inside⟩ := old
        have member := mem_of_getElem? there
        have clash : conflictsWith b.writeSetUnion (writeSet tx) = true := by
          by_contra apart
          have apart := (built.sound b member).covers i inside tx' first _ (Bool.eq_false_of_not_eq_true apart)
          rw [apart] at conflict
          cases conflict
        by_contra late
        have inside' : l' < p.batches.length := by
          have := (List.getElem?_eq_some_iff.mp there).1
          omega
        have here : p.batches[l']? = some p.batches[l'] := List.getElem?_eq_getElem inside'
        have fits := (free _ here).resolve_left (built.nonempty _ (getElem_mem inside'))
        have clash' : conflictsWith p.batches[l'].writeSetUnion (writeSet tx) = true := by
          by_cases same : l' = l
          · subst same
            rw [here] at there
            cases there
            exact clash
          · exact gap l l' b _ from_ (by omega) there here clash
        rw [fits] at clash'
        cases clash'
      · exact absurd less (Nat.lt_irrefl _)

theorem planOf_inOrder_iff (writeSet : Transaction → WriteSet) (txs : List Transaction) (le : n ≤ txs.length) :
    InOrder writeSet txs (planOf writeSet txs n).batches ↔
      ∀ m < n, ∀ tx, txs[m]? = some tx → (planOf writeSet txs m).NoGap writeSet tx := by
  induction n with
  | zero =>
    constructor
    · exact fun _ m below => absurd below (Nat.not_lt_zero m)
    · intro _ i j k l tx tx' _ _ _ _ held
      obtain ⟨b, found, -⟩ := held
      cases found
  | succ n ih =>
    have found : txs[n]? = some txs[n] := List.getElem?_eq_getElem (by omega)
    rw [planOf_succ found, (planOf_built writeSet txs (by omega)).inOrder_add found, ih (by omega)]
    constructor
    · rintro ⟨before, now⟩ m below tx at_
      by_cases same : m = n
      · subst same
        rw [found] at at_
        cases at_
        exact now
      · exact before m (by omega) tx at_
    · intro all
      exact ⟨fun m below => all m (by omega), all n (Nat.lt_succ_self n) _ found⟩

structure Serializable (writeSet : Transaction → WriteSet) (txs : List Transaction) (batches : List Batch) : Prop where
  once : ∀ i, (∃ k, Holds batches k i) ↔ i < txs.length
  unique : ∀ k l i, Holds batches k i → Holds batches l i → k = l
  nodup : ∀ b ∈ batches, b.txIndices.Nodup
  apart : ∀ b ∈ batches, ∀ i ∈ b.txIndices, ∀ j ∈ b.txIndices, i ≠ j → ∀ tx tx', txs[i]? = some tx → txs[j]? = some tx' →
    conflictsWith (writeSet tx) (writeSet tx') = false
  senders : ∀ i j k l tx tx', i < j → txs[i]? = some tx → txs[j]? = some tx' → tx.sender = tx'.sender →
    Holds batches k i → Holds batches l j → k < l
  conflicts : InOrder writeSet txs batches

/-- The batches of a block respect the order of all conflicting pairs exactly if no transaction, when it is placed, finds a
batch it fits before one it conflicts with. All else that serializability asks for always holds. -/
theorem batches_serializable_iff (writeSet : Transaction → WriteSet) (txs : List Transaction) :
    Serializable writeSet txs (buildBatches writeSet txs) ↔
      ∀ n tx, txs[n]? = some tx → (planOf writeSet txs n).NoGap writeSet tx := by
  have built := planOf_built writeSet txs le_rfl
  have order := planOf_inOrder_iff writeSet txs le_rfl
  rw [planOf_length] at order
  constructor
  · intro serializable n tx found
    exact order.mp serializable.conflicts n (List.getElem?_eq_some_iff.mp found).1 tx found
  · intro gap
    rw [← planOf_length] at order ⊢
    refine ⟨?_, built.unique, fun b member => (built.sound b member).nodup, ?_, built.senders,
      order.mpr (fun m _ tx found => gap m tx found)⟩
    · exact fun i => ⟨fun ⟨k, held⟩ => (built.below held).1, built.placed i⟩
    · exact fun b member i first j second differ tx tx' found found' =>
        (built.sound b member).free first second differ found found'

/-! Three transactions of different senders. -/

namespace SmallBlock

def txOf (sender : Nat) (written : List UInt8) : Transaction where
  payload := written
  attestation := ⟨0, BitVec.ofNat 256 sender, ⟨1, 0⟩, 0, ⟨.ed25519, []⟩⟩
  rawChain := none
  zkAuth := none

def writes (tx : Transaction) : WriteSet := .accounts (tx.payload.map (fun byte => ⟨BitVec.ofNat 256 byte.toNat⟩))

def block : List Transaction := [txOf 1 [1, 9], txOf 2 [2, 9], txOf 3 [3, 2]]

/-- The third transaction writes account `2`, which the second one writes too, and runs before it. -/
theorem third_before_second :
    conflictsWith (writes (txOf 2 [2, 9])) (writes (txOf 3 [3, 2])) = true ∧
      (buildBatches writes block).map (·.txIndices) = [[0, 2], [1]] := by
  decide +kernel

end SmallBlock

end AceChain.Vm.Scheduler
