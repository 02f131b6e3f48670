import AceChain.Lib.Bytes
import AceChain.Lib.Maps
import Mathlib.Data.List.Induction

namespace AceChain.Lib

open Std.TreeMap

section Folds

variable {σ ρ κ β γ ε : Type*}

theorem foldl_same {step : σ → ρ → σ} {f : σ → γ} (same : ∀ s r, f (step s r) = f s) (rows : List ρ) (s : σ) :
    f (rows.foldl step s) = f s := by
  induction rows generalizing s with
  | nil => rfl
  | cons r rows ih => exact (ih (step s r)).trans (same s r)

variable {rows : List ρ}

/-- A row brings the entry it is read as, and may leave one that is there already. -/
structure Enters (look : σ → κ → Option β) (step : σ → ρ → σ) (entry : ρ → Option (κ × β)) : Prop where
  hit : ∀ s r k v, entry r = some (k, v) → look s k = none ∨ look s k = some v → look (step s r) k = some v
  miss : ∀ s r k, (∀ v, entry r ≠ some (k, v)) → look (step s r) k = look s k

theorem Enters.of_insert [DecidableEq κ] {look : σ → κ → Option β} {step : σ → ρ → σ} {entry : ρ → Option (κ × β)}
    (inserts : ∀ s r k, look (step s r) k = (entry r).elim (look s k) (fun e => if k = e.1 then some e.2 else look s k)) :
    Enters look step entry where
  hit s r k v found _ := by rw [inserts, found, Option.elim_some, if_pos rfl]
  miss s r k misses := by
    rw [inserts]
    cases found : entry r with
    | none => rfl
    | some e =>
      rw [Option.elim_some, if_neg]
      rintro rfl
      exact misses e.2 found

/-- Rows with at most one value for a key, brought into a state that has none: the state then has the entries of the rows. -/
theorem lookup_foldl {look : σ → κ → Option β} {step : σ → ρ → σ} {entry : ρ → Option (κ × β)}
    (enters : Enters look step entry)
    (functional : ∀ r ∈ rows, ∀ r' ∈ rows, ∀ k v v', entry r = some (k, v) → entry r' = some (k, v') → v = v') {s : σ}
    (empty : ∀ k, look s k = none) (k : κ) (v : β) :
    look (rows.foldl step s) k = some v ↔ ∃ r ∈ rows, entry r = some (k, v) := by
  induction rows using List.reverseRecOn generalizing v with
  | nil => simp [empty]
  | append_singleton rows r ih =>
    have inside : ∀ r' ∈ rows, r' ∈ rows ++ [r] := fun r' member => List.mem_append_left _ member
    have last : r ∈ rows ++ [r] := List.mem_append_right _ List.mem_cons_self
    have earlier := ih (fun r first r' second => functional r (inside r first) r' (inside r' second))
    rw [List.foldl_concat]
    by_cases hits : ∃ v', entry r = some (k, v')
    · obtain ⟨v', found⟩ := hits
      have before : look (rows.foldl step s) k = none ∨ look (rows.foldl step s) k = some v' := by
        cases held : look (rows.foldl step s) k with
        | none => exact .inl rfl
        | some w =>
          obtain ⟨r', member, found'⟩ := (earlier w).mp held
          rw [functional r' (inside r' member) r last k w v' found' found]
          exact .inr rfl
      rw [enters.hit _ r k v' found before]
      constructor
      · intro same
        cases same
        exact ⟨r, last, found⟩
      · rintro ⟨r', member, found'⟩
        rw [functional r last r' member k v' v found found']
    · have misses : ∀ v', entry r ≠ some (k, v') := fun v' found => hits ⟨v', found⟩
      rw [enters.miss _ r k misses, earlier v]
      constructor
      · rintro ⟨r', member, found⟩
        exact ⟨r', inside r' member, found⟩
      · rintro ⟨r', member, found⟩
        rcases List.mem_append.mp member with among | singleton
        · exact ⟨r', among, found⟩
        · rw [List.mem_singleton.mp singleton] at found
          exact absurd found (misses v)

theorem foldl_project {τ ρ' : Type*} {I : σ → Prop} (proj : σ → τ)
    {step : σ → ρ → σ} {pick : ρ → Option ρ'} (step' : τ → ρ' → τ)
    (keep : ∀ s, ∀ r ∈ rows, I s → I (step s r) ∧ proj (step s r) = (pick r).elim (proj s) (step' (proj s)))
    {s : σ} (start : I s) :
    I (rows.foldl step s) ∧ proj (rows.foldl step s) = (rows.filterMap pick).foldl step' (proj s) := by
  induction rows generalizing s with
  | nil => exact ⟨start, rfl⟩
  | cons r rows ih =>
    obtain ⟨kept, now⟩ := keep s r List.mem_cons_self start
    obtain ⟨last, rest⟩ := ih (fun s r member => keep s r (List.mem_cons_of_mem _ member)) kept
    refine ⟨last, rest.trans ?_⟩
    rw [now]
    cases picked : pick r with
    | none => rw [List.filterMap_cons_none picked, Option.elim_none]
    | some r' => rw [List.filterMap_cons_some picked, List.foldl_cons, Option.elim_some]

theorem foldlM_ok {α : Type*} (next : σ → ρ → α → σ) {read : ρ → Except ε α} {value : ρ → α}
    (readable : ∀ r ∈ rows, read r = .ok (value r)) (s : σ) :
    rows.foldlM (fun s r => (read r).map (next s r)) s = .ok (rows.foldl (fun s r => next s r (value r)) s) := by
  induction rows generalizing s with
  | nil => rfl
  | cons r rows ih =>
    rw [List.foldlM_cons, readable r List.mem_cons_self]
    exact ih (fun r member => readable r (List.mem_cons_of_mem _ member)) (next s r (value r))

end Folds

/-- Rows of bytes under keys of bytes, walked in the order of their keys. -/
abbrev Table := Std.TreeMap (List UInt8) (List UInt8)

namespace Table

def put (table : Table) (rows : List (List UInt8 × List UInt8)) : Table :=
  rows.foldl (fun table row => table.insert row.1 row.2) table

def deleteRange (table : Table) (start stop : List UInt8) : Table :=
  table.filter (fun key _ => !(compare start key != .gt && compare key stop == .lt))

def Functional (rows : List (List UInt8 × List UInt8)) : Prop := ∀ r ∈ rows, ∀ r' ∈ rows, r.1 = r'.1 → r.2 = r'.2

variable {table : Table} {rows : List (List UInt8 × List UInt8)}

theorem lookup_put (functional : Functional rows)
    (empty : ∀ key : List UInt8, table[key]? = none) (key value : List UInt8) :
    (table.put rows)[key]? = some value ↔ (key, value) ∈ rows := by
  have enters : Enters (fun (table : Table) key => table[key]?) (fun table row => table.insert row.1 row.2) some :=
    .of_insert fun table row key => lookup_insert table row.1 key row.2
  have alike : ∀ r ∈ rows, ∀ r' ∈ rows, ∀ key value value', some r = some (key, value) → some r' = some (key, value') →
      value = value' := by
    intro r first r' second key value value' same same'
    cases same
    cases same'
    exact functional _ first _ second rfl
  unfold put
  rw [lookup_foldl enters alike empty key value]
  simp

theorem mem_toList_put (functional : Functional rows)
    (empty : ∀ key : List UInt8, table[key]? = none) (row : List UInt8 × List UInt8) :
    row ∈ (table.put rows).toList ↔ row ∈ rows := by
  rw [← lookup_put functional empty row.1 row.2]
  exact mem_toList_iff_getElem?_eq_some

section Codes

variable {κ β σ : Type*} {rel : κ → β → Prop} {key : κ → List UInt8} {value : β → List UInt8}
  {rows : List (List UInt8 × List UInt8)}

/-- Rows that are the codes of the pairs of a relation. -/
def Codes (rel : κ → β → Prop) (key : κ → List UInt8) (value : β → List UInt8)
    (rows : List (List UInt8 × List UInt8)) : Prop :=
  ∀ row, row ∈ rows ↔ ∃ k b, rel k b ∧ row = (key k, value b)

theorem codes_toList [Ord κ] [Std.TransOrd κ] [Std.LawfulEqOrd κ] [DecidableEq κ] (entries : Std.TreeMap κ β) :
    Codes (fun k b => entries[k]? = some b) key value (entries.toList.map (fun entry => (key entry.1, value entry.2))) := by
  intro row
  rw [List.mem_map]
  constructor
  · rintro ⟨⟨k, b⟩, listed, rfl⟩
    exact ⟨k, b, mem_toList_iff_getElem?_eq_some.mp listed, rfl⟩
  · rintro ⟨k, b, found, rfl⟩
    exact ⟨(k, b), mem_toList_iff_getElem?_eq_some.mpr found, rfl⟩

section

variable (codes : Codes rel key value rows)

include codes

theorem Codes.functional
    (single : ∀ k b k' b', rel k b → rel k' b' → key k = key k' → b = b') : Functional rows := by
  intro r first r' second same
  obtain ⟨k, b, held, rfl⟩ := (codes r).mp first
  obtain ⟨k', b', held', rfl⟩ := (codes r').mp second
  exact congrArg value (single k b k' b' held held' same)

theorem Codes.put (functional : Functional rows) {table : Table}
    (empty : ∀ key : List UInt8, table[key]? = none) : Codes rel key value (table.put rows).toList :=
  fun row => (mem_toList_put functional empty row).trans (codes row)

variable {look : σ → κ → Option β} {step : σ → List UInt8 × List UInt8 → σ} {entry : List UInt8 × List UInt8 → Option (κ × β)}
  (enters : Enters look step entry) (single : ∀ k b b', rel k b → rel k b' → b = b')

include enters single

theorem Codes.lookup_foldl {fits : β → Prop} [DecidablePred fits]
    (reads : ∀ k b, rel k b → entry (key k, value b) = if fits b then some (k, b) else none) {s : σ}
    (empty : ∀ k, look s k = none) (k : κ) (b : β) : look (rows.foldl step s) k = some b ↔ fits b ∧ rel k b := by
  have entries : ∀ row ∈ rows, ∀ k b, entry row = some (k, b) → fits b ∧ rel k b := by
    intro row member k b found
    obtain ⟨k', b', held, rfl⟩ := (codes row).mp member
    rw [reads k' b' held] at found
    split at found
    · rename_i fit
      cases found
      exact ⟨fit, held⟩
    · cases found
  rw [Lib.lookup_foldl enters ?_ empty]
  · constructor
    · rintro ⟨row, member, found⟩
      exact entries row member k b found
    · rintro ⟨fit, held⟩
      exact ⟨_, (codes _).mpr ⟨k, b, held, rfl⟩, (reads k b held).trans (if_pos fit)⟩
  · intro r first r' second k b b' found found'
    exact single k b b' (entries r first k b found).2 (entries r' second k b' found').2

theorem Codes.lookup_foldl_all (reads : ∀ k b, rel k b → entry (key k, value b) = some (k, b)) {s : σ}
    (empty : ∀ k, look s k = none) (k : κ) (b : β) : look (rows.foldl step s) k = some b ↔ rel k b := by
  have fitting := codes.lookup_foldl enters single (fun k b held => (reads k b held).trans (if_pos trivial).symm) empty k b
  rwa [true_and] at fitting

end

end Codes

theorem compare_replicate_max {key : List UInt8} {n : Nat} (short : key.length < n) :
    compare key (List.replicate n 0xFF) = .lt := by
  induction key generalizing n with
  | nil =>
    cases n with
    | zero => cases short
    | succ n => rfl
  | cons byte key ih =>
    cases n with
    | zero => cases short
    | succ n =>
      have rest := ih (Nat.lt_of_succ_lt_succ short)
      have split : compare (byte :: key) (0xFF :: List.replicate n 0xFF) =
          (compare byte 0xFF).then (compare key (List.replicate n 0xFF)) := List.compareLex_cons_cons
      rw [List.replicate_succ, split, rest]
      cases order : compare byte 0xFF with
      | lt => rfl
      | eq => rfl
      | gt =>
        have above : ¬byte < 0xFF ∧ byte ≠ 0xFF := by
          unfold compare UInt8.instOrd at order
          simp only [compareOfLessAndEq] at order
          split at order <;> [cases order; skip]
          split at order <;> [cases order; skip]
          exact ⟨‹_›, ‹_›⟩
        have bound := UInt8.toNat_lt byte
        have low := above.1
        have high := above.2
        rw [UInt8.lt_iff_toNat_lt] at low
        rw [ne_eq, ← UInt8.toNat_inj] at high
        simp only [show (0xFF : UInt8).toNat = 255 from rfl] at low high
        omega

theorem compare_nil (key : List UInt8) : compare [] key ≠ .gt := by
  cases key with
  | nil => decide
  | cons byte key => simp [compare, List.compareLex_nil_cons]

theorem compare_append_left (start key key' : List UInt8) : compare (start ++ key) (start ++ key') = compare key key' := by
  induction start with
  | nil => rfl
  | cons byte start ih =>
    have split : compare (byte :: (start ++ key)) (byte :: (start ++ key')) =
        (compare byte byte).then (compare (start ++ key) (start ++ key')) := List.compareLex_cons_cons
    have same : compare byte byte = .eq := Std.ReflCmp.compare_self
    rw [List.cons_append, List.cons_append, split, same, ih]
    rfl

theorem lookup_deleteRange {n : Nat} (short : ∀ key : List UInt8, n ≤ key.length → table[key]? = none)
    (key : List UInt8) : (table.deleteRange [] (List.replicate n 0xFF))[key]? = none := by
  unfold deleteRange
  rw [getElem?_filter']
  by_cases long : n ≤ key.length
  · rw [short key long]
    rfl
  · have inside := compare_replicate_max (Nat.lt_of_not_le long)
    have start := compare_nil key
    cases table[key]? with
    | none => rfl
    | some value => simp [inside, start]

end Table

end AceChain.Lib
