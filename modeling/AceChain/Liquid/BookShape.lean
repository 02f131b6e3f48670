import AceChain.Lib.LinkedQueue
import AceChain.Liquid.Book
import AceChain.Liquid.LadderRuns

namespace AceChain.Liquid.Book

open Lib Handler LinkedQueue Function

abbrev Queues := OrderSide → Nat → List Nat

def setQueue (queue : Queues) (side : OrderSide) (price : Nat) (ids : List Nat) : Queues :=
  update queue side (update (queue side) price ids)

structure Linked (b : Book) (queue : Queues) : Prop where
  held : ∀ side price, Holds b.node (b.level side price) (queue side price)
  apart : ∀ side price side' price' id, id ∈ queue side price → id ∈ queue side' price' → side = side' ∧ price = price'
  small : ∀ side price, queue side price ≠ [] → price < 2 ^ 64
  ladder : ∃ sets, b.ladder.Represents sets ∧ ∀ side price, price ∈ sets side ↔ queue side price ≠ []

def Relinked (b b' : Book) : Prop := b' = { b with node := b'.node, level := b'.level, ladder := b'.ladder }

section

variable {b : Book} {queue : Queues} {side side' : OrderSide} {price price' id : Nat} {ids xs ys : List Nat}

theorem setQueue_same : setQueue queue side price ids side price = ids := by
  unfold setQueue
  rw [update_self, update_self]

theorem setQueue_other (other : ¬ (side' = side ∧ price' = price)) :
    setQueue queue side price ids side' price' = queue side' price' := by
  unfold setQueue
  by_cases same : side' = side
  · subst same
    rw [update_self, update_of_ne (fun h => other ⟨rfl, h⟩)]
  · rw [update_of_ne same]

theorem level_writeLevel_same {ends : Nat × Nat} : (writeLevel side price ends b).level side price = ends := by
  unfold writeLevel
  dsimp only
  rw [update_self, update_self]

theorem level_writeLevel_other {ends : Nat × Nat} (other : ¬ (side' = side ∧ price' = price)) :
    (writeLevel side price ends b).level side' price' = b.level side' price' := by
  unfold writeLevel
  dsimp only
  by_cases same : side' = side
  · subst same
    rw [update_self, update_of_ne (fun h => other ⟨rfl, h⟩)]
  · rw [update_of_ne same]

theorem Linked.replace (linked : Linked b queue) {b' : Book}
    (own : Holds b'.node (b'.level side price) ids)
    (levels : ∀ side' price', ¬ (side' = side ∧ price' = price) → b'.level side' price' = b.level side' price')
    (links : ∀ side' price' x, ¬ (side' = side ∧ price' = price) → x ∈ queue side' price' → b'.node x = b.node x)
    (unique : ∀ side' price' x, ¬ (side' = side ∧ price' = price) → x ∈ ids → x ∉ queue side' price')
    (small : ids ≠ [] → price < 2 ^ 64)
    (ladder : ∃ sets, b'.ladder.Represents sets ∧ ∀ s p, p ∈ sets s ↔ setQueue queue side price ids s p ≠ []) :
    Linked b' (setQueue queue side price ids) := by
  refine ⟨?_, ?_, ?_, ladder⟩
  · intro s p
    by_cases here : s = side ∧ p = price
    · obtain ⟨rfl, rfl⟩ := here
      rw [setQueue_same]
      exact own
    · rw [setQueue_other here, levels s p here]
      exact (linked.held s p).congr (fun x member => links s p x here member)
  · intro s p s' p' x first second
    by_cases here : s = side ∧ p = price
    · by_cases here' : s' = side ∧ p' = price
      · exact ⟨here.1.trans here'.1.symm, here.2.trans here'.2.symm⟩
      · rw [here.1, here.2, setQueue_same] at first
        rw [setQueue_other here'] at second
        exact absurd second (unique s' p' x here' first)
    · rw [setQueue_other here] at first
      by_cases here' : s' = side ∧ p' = price
      · rw [here'.1, here'.2, setQueue_same] at second
        exact absurd first (unique s p x here second)
      · rw [setQueue_other here'] at second
        exact linked.apart s p s' p' x first second
  · intro s p filled
    by_cases here : s = side ∧ p = price
    · rw [here.1, here.2, setQueue_same] at filled
      rw [here.2]
      exact small filled
    · rw [setQueue_other here] at filled
      exact linked.small s p filled

variable {sets : OrderSide → Finset Nat}

theorem mem_update_sets {keys : Finset Nat}
    (before : ∀ s p, p ∈ sets s ↔ queue s p ≠ [])
    (own : ∀ p, p ∈ keys ↔ if p = price then ids ≠ [] else p ∈ sets side) (s : OrderSide) (p : Nat) :
    p ∈ update sets side keys s ↔ setQueue queue side price ids s p ≠ [] := by
  by_cases same : s = side
  · subst same
    rw [update_self, own]
    by_cases here : p = price
    · subst here
      rw [if_pos rfl, setQueue_same]
    · rw [if_neg here, setQueue_other (fun h => here h.2)]
      exact before s p
  · rw [update_of_ne same, setQueue_other (fun h => same h.1)]
    exact before s p

theorem mem_sets_of_filled (before : ∀ s p, p ∈ sets s ↔ queue s p ≠ [])
    (was : queue side price ≠ []) (stays : ids ≠ []) (s : OrderSide) (p : Nat) :
    p ∈ sets s ↔ setQueue queue side price ids s p ≠ [] := by
  by_cases here : s = side ∧ p = price
  · obtain ⟨rfl, rfl⟩ := here
    rw [setQueue_same, before]
    exact ⟨fun _ => stays, fun _ => was⟩
  · rw [setQueue_other here]
    exact before s p

theorem Linked.elsewhere (linked : Linked b queue) {x y : Nat} (other : ¬ (side' = side ∧ price' = price))
    (member : x ∈ queue side' price') (here : y ∈ queue side price ∨ y = 0) : x ≠ y := by
  rintro rfl
  rcases here with here | rfl
  · exact other (linked.apart side' price' side price x member here)
  · exact (linked.held side' price').nonzero member

theorem onLadder_ok {f : Ladder → Except Fault Ladder} {l : Ladder} (done : f b.ladder = .ok l) :
    onLadder f b = (.ok (), { b with ladder := l }) := by
  unfold onLadder
  rw [done]

theorem askLadder_ok {α : Type} (f : Ladder → Except Fault α) {a : α} (done : f b.ladder = .ok a) :
    askLadder f b = (.ok a, b) := by
  unfold askLadder
  rw [done]

theorem enqueueOrder_linked (side : OrderSide) (linked : Linked b queue) (nonzero : id ≠ 0) (fresh : ∀ s p, id ∉ queue s p)
    (bound : price < 2 ^ 64) (room : b.ladder.upcoming + 2 < 2 ^ 64) :
    ∃ b', enqueueOrder side price id b = (.ok (), b') ∧ Relinked b b' ∧ b'.ladder.upcoming ≤ b.ladder.upcoming + 2 ∧
      Linked b' (setQueue queue side price (queue side price ++ [id])) := by
  have held := linked.held side price
  have pushed := held.push nonzero (fresh side price)
  have links : ∀ side' price' x, ¬ (side' = side ∧ price' = price) → x ∈ queue side' price' →
      push b.node (b.level side price) id x = b.node x := by
    intro side' price' x other member
    have notSelf : x ≠ id := fun same => fresh side' price' (same ▸ member)
    exact push_other notSelf (linked.elsewhere other member held.last_mem_or)
  have unique : ∀ side' price' x, ¬ (side' = side ∧ price' = price) → x ∈ queue side price ++ [id] →
      x ∉ queue side' price' := by
    intro side' price' x other member there
    rcases List.mem_append.mp member with member | member
    · exact linked.elsewhere other there (Or.inl member) rfl
    · exact fresh side' price' (List.mem_singleton.mp member ▸ there)
  obtain ⟨sets, rep, keys⟩ := linked.ladder
  unfold enqueueOrder
  rw [run_read]
  dsimp only
  by_cases empty : (b.level side price).2 = 0
  · -- the first order of its price brings the price onto the ladder
    obtain ⟨l, inserted, given, rep'⟩ := Ladder.insert_represents (by decide : 64 < ladderRounds) bound
      (fun k member => linked.small side k ((keys side k).mp member)) rep room
    unfold push at pushed links
    unfold pushEnds at pushed
    rw [if_pos empty] at pushed
    rw [if_pos empty, run_write, run_write, onLadder_ok inserted]
    refine ⟨_, rfl, rfl, given, linked.replace ?_ ?_ ?_ unique (fun _ => bound) ⟨_, rep', ?_⟩⟩
    · rw [if_pos empty] at pushed
      rw [level_writeLevel_same]
      exact pushed
    · intro side' price' other
      exact level_writeLevel_other other
    · intro side' price' x other member
      have kept := links side' price' x other member
      rw [if_pos empty] at kept
      exact kept
    · refine mem_update_sets keys ?_
      intro p
      by_cases here : p = price
      · simp [here]
      · simp [here]
  · have filled : queue side price ≠ [] := fun nil => empty ((ends_eq_zero held).2.mpr nil)
    unfold push at pushed links
    unfold pushEnds at pushed
    rw [if_neg empty, run_read, run_write, run_write]
    refine ⟨_, rfl, rfl, Nat.le_add_right _ _, linked.replace ?_ ?_ ?_ unique (fun _ => bound) ⟨sets, rep, ?_⟩⟩
    · rw [if_neg empty, if_neg empty] at pushed
      rw [level_writeLevel_same]
      exact pushed
    · intro side' price' other
      exact level_writeLevel_other other
    · intro side' price' x other member
      have kept := links side' price' x other member
      rw [if_neg empty] at kept
      exact kept
    · exact mem_sets_of_filled keys filled (by simp)

/-- The words of the neighbours are read after the earlier write, as the code does. -/
def unlinked (id : Nat) (b : Book) : Book := { b with node := unlink b.node id }

theorem removeOrderFromQueue_eq (side : OrderSide) (price id : Nat) (b : Book) :
    removeOrderFromQueue side price id b =
      if (unlinkEnds b.node (b.level side price) id).1 = 0 then
        onLadder (fun l => l.remove ladderRounds side price) (writeLevel side price (0, 0) (unlinked id b))
      else (.ok (), writeLevel side price (unlinkEnds b.node (b.level side price) id) (unlinked id b)) := by
  unfold unlinked unlink unlinkEnds
  cases levels : b.level side price with
  | mk head tail =>
    cases nodes : b.node id with
    | mk prev next =>
      unfold removeOrderFromQueue
      rw [run_read, levels]
      refine (run_read _).trans ?_
      rw [nodes]
      by_cases hasPrev : prev ≠ 0 <;> by_cases hasNext : next ≠ 0 <;> by_cases last : (if head = id then next else head) = 0
      all_goals
        simp only [hasPrev, hasNext, last, if_true, if_false, ne_eq, not_false_eq_true]
        rfl

theorem removeOrderFromQueue_linked (linked : Linked b queue) (split_ : queue side price = xs ++ id :: ys) :
    ∃ b', removeOrderFromQueue side price id b = (.ok (), b') ∧ Relinked b b' ∧ b'.ladder.upcoming = b.ladder.upcoming ∧
      Linked b' (setQueue queue side price (xs ++ ys)) := by
  have held := linked.held side price
  rw [split_] at held
  have rest := held.unlink
  have filled : queue side price ≠ [] := by simp [split_]
  have links : ∀ side' price' x, ¬ (side' = side ∧ price' = price) → x ∈ queue side' price' →
      unlink b.node id x = b.node x := by
    intro side' price' x other member
    obtain ⟨before, after⟩ := held.neighbours_mem_or
    rw [← split_] at before after
    have self : id ∈ queue side price := by simp [split_]
    exact unlink_other (linked.elsewhere other member (Or.inl self)) (linked.elsewhere other member before)
      (linked.elsewhere other member after)
  have unique : ∀ side' price' x, ¬ (side' = side ∧ price' = price) → x ∈ xs ++ ys → x ∉ queue side' price' := by
    intro side' price' x other member there
    have here : x ∈ queue side price := by
      rw [split_]
      rcases List.mem_append.mp member with member | member
      · exact List.mem_append_left _ member
      · exact List.mem_append_right _ (List.mem_cons_of_mem _ member)
    exact linked.elsewhere other there (Or.inl here) rfl
  have bound : xs ++ ys ≠ [] → price < 2 ^ 64 := fun _ => linked.small side price filled
  obtain ⟨sets, rep, keys⟩ := linked.ladder
  rw [removeOrderFromQueue_eq]
  by_cases empty : (unlinkEnds b.node (b.level side price) id).1 = 0
  · -- the last order of its price takes the price off the ladder
    have none_ : xs ++ ys = [] := (ends_eq_zero rest).1.mp empty
    obtain ⟨l, removed, given, rep'⟩ := Ladder.remove_represents (by decide : 64 < ladderRounds) rep
    rw [if_pos empty, onLadder_ok removed]
    refine ⟨_, rfl, rfl, given, linked.replace ?_ ?_ links unique bound ⟨_, rep', ?_⟩⟩
    · change Holds _ ((writeLevel side price (0, 0) (unlinked id b)).level side price) _
      rw [level_writeLevel_same, none_]
      exact holds_nil
    · intro side' price' other
      exact level_writeLevel_other other
    · refine mem_update_sets keys ?_
      intro p
      by_cases here : p = price
      · simp [here, none_]
      · simp [here]
  · have stays : xs ++ ys ≠ [] := fun nil => empty ((ends_eq_zero rest).1.mpr nil)
    rw [if_neg empty]
    refine ⟨_, rfl, rfl, rfl, linked.replace ?_ ?_ links unique bound ⟨sets, rep, mem_sets_of_filled keys filled stays⟩⟩
    · rw [level_writeLevel_same]
      exact rest
    · intro side' price' other
      exact level_writeLevel_other other

def AtLeastAsGood : OrderSide → Nat → Nat → Prop
  | .buy, p, q => q ≤ p
  | .sell, p, q => p ≤ q

theorem bestPrice_linked (linked : Linked b queue) (side : OrderSide) :
    ∃ best, bestPrice side b = (.ok best, b) ∧
      match best with
      | none => ∀ price, queue side price = []
      | some p => queue side p ≠ [] ∧ ∀ price, queue side price ≠ [] → AtLeastAsGood side p price := by
  obtain ⟨sets, rep, keys⟩ := linked.ladder
  have refines := rep.refines (by decide : 64 < ladderRounds)
  have nothing : sets side = ∅ → ∀ price, queue side price = [] := by
    intro empty price
    by_contra filled
    have member := (keys side price).mpr filled
    rw [empty] at member
    exact Finset.notMem_empty price member
  cases side with
  | buy =>
    obtain ⟨best, found, spec⟩ := refines.max .buy
    refine ⟨best, askLadder_ok (fun l => l.max ladderRounds .buy) found, ?_⟩
    cases best with
    | none => exact nothing spec
    | some p => exact ⟨(keys .buy p).mp spec.1, fun price filled => spec.2 ((keys .buy price).mpr filled)⟩
  | sell =>
    obtain ⟨best, found, spec⟩ := refines.min .sell
    refine ⟨best, askLadder_ok (fun l => l.min ladderRounds .sell) found, ?_⟩
    cases best with
    | none => exact nothing spec
    | some p => exact ⟨(keys .sell p).mp spec.1, fun price filled => spec.2 ((keys .sell price).mpr filled)⟩

end

end AceChain.Liquid.Book
