import AceChain.Liquid.Ladder

namespace AceChain.Liquid.Ladder

open Lib CritBit Function Trie Ladder List

theorem dir_eq (key crit : Nat) : dir key crit = (key.testBit crit).toNat := by
  rw [dir, Nat.and_one_is_mod, Nat.shiftRight_eq_div_pow, Nat.toNat_testBit]

theorem if_dir {α : Type} (key crit : Nat) (left right : α) :
    (if dir key crit = 0 then left else right) = if key.testBit crit then right else left := by
  rw [dir_eq]
  cases key.testBit crit <;> simp

theorem dir_fits (key bit : Nat) : dir key bit = 0 ↔ key.testBit bit = false := by
  rw [dir_eq]
  cases key.testBit bit <;> simp

theorem readNode_writeNode (l : Ladder) (handle : Nat) (n : Node) :
    (l.writeNode handle n).readNode = update l.readNode handle n := by
  funext h
  by_cases here : h = handle
  · subst here
    cases n <;> simp [readNode, writeNode, writeRawNode, tagInner, tagLeaf]
  · cases n <;> simp [readNode, writeNode, writeRawNode, here]

def linkOf : List Frame → Link
  | [] => .root
  | f :: _ => .child f.handle f.right.toNat

def parentOf : List Frame → Option (Link × Nat × Nat)
  | [] => none
  | f :: fs => some (linkOf fs, f.handle, f.right.toNat)

variable {l : Ladder} {t : Trie} {bound fuel : Nat}

theorem walk_held (key : Nat) (held : t.Held l.readNode) (ordered : t.Ordered bound) (enough : bound < fuel) :
    ∃ p, l.walk key fuel t.handle = .ok p ∧ l.readNode p = .leaf (t.find key) := by
  induction t generalizing bound fuel with
  | leaf h k =>
    obtain ⟨fuel, rfl⟩ : ∃ n, fuel = n + 1 := ⟨fuel - 1, by omega⟩
    have here : l.readNode h = .leaf k := held
    refine ⟨h, ?_, here⟩
    rw [handle, walk, here]
  | node h crit left right ihl ihr =>
    obtain ⟨fuel, rfl⟩ : ∃ n, fuel = n + 1 := ⟨fuel - 1, by omega⟩
    obtain ⟨here, hl, hr⟩ := held
    have below := ordered.1
    rw [handle, walk, here, find]
    dsimp only
    rw [if_dir]
    by_cases bit : key.testBit crit = true
    · rw [if_pos bit, if_pos bit]
      exact ihr hr ordered.2.2.1 (by omega)
    · rw [if_neg bit, if_neg bit]
      exact ihl hl ordered.2.1 (by omega)

theorem seek_held (key bit : Nat) (fs : List Frame) (held : t.Held l.readNode) (ordered : t.Ordered bound)
    (enough : bound < fuel) :
    l.seek key bit fuel (linkOf fs) t.handle = .ok (linkOf (t.seek key bit fs).1, (t.seek key bit fs).2.handle) := by
  induction t generalizing bound fuel fs with
  | leaf h k =>
    obtain ⟨fuel, rfl⟩ : ∃ n, fuel = n + 1 := ⟨fuel - 1, by omega⟩
    have here : l.readNode h = .leaf k := held
    rw [handle, seek, here]
    rfl
  | node h crit left right ihl ihr =>
    obtain ⟨fuel, rfl⟩ : ∃ n, fuel = n + 1 := ⟨fuel - 1, by omega⟩
    obtain ⟨here, hl, hr⟩ := held
    have below := ordered.1
    rw [Trie.handle, seek, here, Trie.seek]
    dsimp only
    by_cases above : bit < crit
    · rw [if_pos above, if_pos above, if_dir, dir_eq]
      cases set : key.testBit crit with
      | true => exact ihr (⟨h, crit, true, left⟩ :: fs) hr ordered.2.2.1 (by omega)
      | false => exact ihl (⟨h, crit, false, right⟩ :: fs) hl ordered.2.1 (by omega)
    · rw [if_neg above, if_neg above]
      rfl

theorem descend_held (key : Nat) (fs : List Frame) (held : t.Held l.readNode) (ordered : t.Ordered bound)
    (enough : bound < fuel) :
    l.descend key fuel ⟨linkOf fs, t.handle, parentOf fs⟩ =
      .ok (if t.find key ≠ key then none
        else some ⟨linkOf (t.descend key fs).1, (t.descend key fs).2.1, parentOf (t.descend key fs).1⟩) := by
  induction t generalizing bound fuel fs with
  | leaf h k =>
    obtain ⟨fuel, rfl⟩ : ∃ n, fuel = n + 1 := ⟨fuel - 1, by omega⟩
    have here : l.readNode h = .leaf k := held
    rw [handle, descend, here]
    rfl
  | node h crit left right ihl ihr =>
    obtain ⟨fuel, rfl⟩ : ∃ n, fuel = n + 1 := ⟨fuel - 1, by omega⟩
    obtain ⟨here, hl, hr⟩ := held
    have below := ordered.1
    rw [Trie.handle, descend, here, Trie.find, Trie.descend]
    dsimp only
    rw [if_dir, dir_eq]
    cases set : key.testBit crit with
    | true => exact ihr (⟨h, crit, true, left⟩ :: fs) hr ordered.2.2.1 (by omega)
    | false => exact ihl (⟨h, crit, false, right⟩ :: fs) hl ordered.2.1 (by omega)

theorem outermost_held (held : t.Held l.readNode) (ordered : t.Ordered bound) (enough : bound < fuel) :
    l.outermost 0 fuel t.handle = .ok t.least ∧ l.outermost 1 fuel t.handle = .ok t.greatest := by
  induction t generalizing bound fuel with
  | leaf h k =>
    obtain ⟨fuel, rfl⟩ : ∃ n, fuel = n + 1 := ⟨fuel - 1, by omega⟩
    have here : l.readNode h = .leaf k := held
    rw [handle, outermost, outermost, here]
    exact ⟨rfl, rfl⟩
  | node h crit left right ihl ihr =>
    obtain ⟨fuel, rfl⟩ : ∃ n, fuel = n + 1 := ⟨fuel - 1, by omega⟩
    obtain ⟨here, hl, hr⟩ := held
    have below := ordered.1
    rw [handle, outermost, outermost, here]
    exact ⟨(ihl hl ordered.2.1 (by omega)).1, (ihr hr ordered.2.2.1 (by omega)).2⟩

def nextFree : Node → Nat
  | .leaf key => key
  | .inner _ _ _ => 0

def Chain (cells : Nat → Node) : Nat → List Nat → Prop
  | head, [] => head = 0
  | head, x :: xs => head = x ∧ Chain cells (nextFree (cells x)) xs

theorem Chain.congr {cells cells' : Nat → Node} {head : Nat} {xs : List Nat} (chain : Chain cells head xs)
    (same : ∀ x ∈ xs, cells' x = cells x) : Chain cells' head xs := by
  induction xs generalizing head with
  | nil => exact chain
  | cons x xs ih =>
    refine ⟨chain.1, ?_⟩
    rw [same x mem_cons_self]
    exact ih chain.2 (fun y member => same y (mem_cons_of_mem _ member))

def handlesOf (tree : Option Trie) : List Nat := tree.elim [] handles

def keysOf (tree : Option Trie) : List Nat := tree.elim [] keys

def owned (tree : OrderSide → Option Trie) (pending free : List Nat) : List Nat :=
  handlesOf (tree .buy) ++ (handlesOf (tree .sell) ++ (pending ++ free))

def upcoming (l : Ladder) : Nat := Nat.max l.nextHandle 1

structure Shape (l : Ladder) (tree : OrderSide → Option Trie) (pending free : List Nat) : Prop where
  root : ∀ side, l.root side = (tree side).elim 0 handle
  held : ∀ side t, tree side = some t → t.Held l.readNode
  ordered : ∀ side t, tree side = some t → t.Ordered 64
  chain : Chain l.readNode l.freeHead free
  apart : (owned tree pending free).Nodup
  range : ∀ h ∈ owned tree pending free, 0 < h ∧ h < l.upcoming

variable {tree : OrderSide → Option Trie} {pending freed : List Nat} {h : Nat}

theorem mem_owned :
    h ∈ owned tree pending freed ↔ (∃ side, h ∈ handlesOf (tree side)) ∨ h ∈ pending ∨ h ∈ freed := by
  simp only [owned, mem_append]
  constructor
  · rintro (buy | sell | rest)
    · exact Or.inl ⟨_, buy⟩
    · exact Or.inl ⟨_, sell⟩
    · exact Or.inr rest
  · rintro (⟨side, inTree⟩ | rest)
    · cases side
      · exact Or.inl inTree
      · exact Or.inr (Or.inl inTree)
    · exact Or.inr (Or.inr rest)

theorem shape_empty : Shape empty (fun _ => none) [] [] where
  root _ := rfl
  held _ _ found := by cases found
  ordered _ _ found := by cases found
  chain := rfl
  apart := nodup_nil
  range _ member := by cases member

structure Apart (tree : OrderSide → Option Trie) (pending free : List Nat) : Prop where
  tree_nodup : ∀ side, (handlesOf (tree side)).Nodup
  trees : ∀ side side' h, h ∈ handlesOf (tree side) → h ∈ handlesOf (tree side') → side = side'
  tree_pending : ∀ side h, h ∈ handlesOf (tree side) → h ∉ pending
  tree_free : ∀ side h, h ∈ handlesOf (tree side) → h ∉ free
  pending_free : ∀ h ∈ pending, h ∉ free

theorem apart_of_nodup (nodup : (owned tree pending freed).Nodup) : Apart tree pending freed := by
  simp only [owned, nodup_append, mem_append] at nodup
  obtain ⟨buyNodup, ⟨sellNodup, ⟨-, -, third⟩, second⟩, first⟩ := nodup
  refine ⟨?_, ?_, ?_, ?_, fun h inPending inFree => third h inPending h inFree rfl⟩
  · rintro (_ | _)
    · exact buyNodup
    · exact sellNodup
  · rintro (_ | _) (_ | _) h here there
    · rfl
    · exact absurd rfl (first h here h (Or.inl there))
    · exact absurd rfl (first h there h (Or.inl here))
    · rfl
  · rintro (_ | _) h here inPending
    · exact first h here h (Or.inr (Or.inl inPending)) rfl
    · exact second h here h (Or.inl inPending) rfl
  · rintro (_ | _) h here inFree
    · exact first h here h (Or.inr (Or.inr inFree)) rfl
    · exact second h here h (Or.inr inFree) rfl

theorem Shape.pending_apart (shape : Shape l tree pending freed) (member : h ∈ pending) :
    (∀ side, h ∉ handlesOf (tree side)) ∧ h ∉ freed :=
  have apart := apart_of_nodup shape.apart
  ⟨fun side inTree => apart.tree_pending side h inTree member, apart.pending_free h member⟩

theorem Shape.write (shape : Shape l tree pending freed) (member : h ∈ pending) (n : Node) :
    Shape (l.writeNode h n) tree pending freed := by
  obtain ⟨outside, notFree⟩ := shape.pending_apart member
  have other : ∀ x, x ≠ h → (l.writeNode h n).readNode x = l.readNode x := by
    intro x differ
    rw [readNode_writeNode, update_of_ne differ]
  have rootSame : (l.writeNode h n).root = l.root := by cases n <;> rfl
  have headSame : (l.writeNode h n).freeHead = l.freeHead := by cases n <;> rfl
  have nextSame : (l.writeNode h n).nextHandle = l.nextHandle := by cases n <;> rfl
  refine ⟨?_, ?_, shape.ordered, ?_, shape.apart, ?_⟩
  · intro side
    rw [rootSame, shape.root]
  · intro side t found
    refine (shape.held side t found).congr ?_
    intro x inTree
    apply other
    rintro rfl
    apply outside side
    rw [handlesOf, found]
    exact inTree
  · rw [headSame]
    refine shape.chain.congr ?_
    intro x inFree
    apply other
    rintro rfl
    exact notFree inFree
  · unfold upcoming
    rw [nextSame]
    exact shape.range

theorem Shape.alloc (shape : Shape l tree pending freed) (room : l.upcoming + 1 < 2 ^ 64) :
    ∃ freed', Shape l.alloc.2 tree (l.alloc.1 :: pending) freed' ∧ l.alloc.2.upcoming ≤ l.upcoming + 1 := by
  cases freed with
  | nil =>
    have empty : l.freeHead = 0 := shape.chain
    have fresh : l.alloc = (l.upcoming, { l with nextHandle := l.upcoming + 1 }) := by
      rw [← u64Add_of_lt _ _ room, alloc, if_neg (by simp [empty])]
      rfl
    rw [fresh]
    have unused : l.upcoming ∉ owned tree pending [] := by
      intro member
      exact lt_irrefl _ (shape.range _ member).2
    have perm : (owned tree (l.upcoming :: pending) []).Perm (l.upcoming :: owned tree pending []) := by
      exact List.Perm.trans (List.Perm.append_left _ perm_middle) perm_middle
    have grown : upcoming { l with nextHandle := l.upcoming + 1 } = l.upcoming + 1 :=
      Nat.max_eq_left (Nat.le_add_left 1 _)
    refine ⟨[], ⟨shape.root, shape.held, shape.ordered, shape.chain, ?_, ?_⟩, grown.le⟩
    · rw [perm.nodup_iff, nodup_cons]
      exact ⟨unused, shape.apart⟩
    · intro h member
      rw [grown]
      rcases List.mem_cons.mp (perm.mem_iff.mp member) with rfl | old
      · exact ⟨Nat.lt_of_lt_of_le Nat.zero_lt_one (Nat.le_max_right _ _), Nat.lt_succ_self _⟩
      · obtain ⟨positive, below⟩ := shape.range h old
        exact ⟨positive, Nat.lt_succ_of_lt below⟩
  | cons x xs =>
    obtain ⟨headed, rest⟩ := shape.chain
    have positive : x ≠ 0 := by
      have inside := shape.range x (mem_owned.mpr (Or.inr (Or.inr mem_cons_self)))
      omega
    have taken : l.alloc = (x, { l with freeHead := nextFree (l.readNode x) }) := by
      rw [alloc, if_pos (by rw [headed]; exact positive), headed]
      rfl
    rw [taken]
    have perm : (owned tree (x :: pending) xs).Perm (owned tree pending (x :: xs)) := by
      refine List.Perm.append_left _ (List.Perm.append_left _ ?_)
      exact List.perm_middle.symm
    exact ⟨xs, ⟨shape.root, shape.held, shape.ordered, rest, perm.nodup_iff.mpr shape.apart,
      fun h member => shape.range h (perm.mem_iff.mp member)⟩, Nat.le_succ _⟩

theorem readNode_free (l : Ladder) (h : Nat) : (l.free h).readNode = update l.readNode h (.leaf l.freeHead) := by
  funext x
  by_cases here : x = h
  · subst here
    simp [readNode, free, writeRawNode, tagFree, tagInner]
  · simp [readNode, free, writeRawNode, here]

theorem Shape.free (shape : Shape l tree (h :: pending) freed) : Shape (l.free h) tree pending (h :: freed) := by
  obtain ⟨outside, notFree⟩ := shape.pending_apart mem_cons_self
  have other : ∀ x, x ≠ h → (l.free h).readNode x = l.readNode x := by
    intro x differ
    rw [readNode_free, update_of_ne differ]
  have perm : (owned tree pending (h :: freed)).Perm (owned tree (h :: pending) freed) := by
    refine List.Perm.append_left _ (List.Perm.append_left _ ?_)
    exact perm_middle
  refine ⟨shape.root, ?_, shape.ordered, ⟨rfl, ?_⟩, perm.nodup_iff.mpr shape.apart,
    fun x member => shape.range x (perm.mem_iff.mp member)⟩
  · intro side t found
    refine (shape.held side t found).congr ?_
    intro x inTree
    apply other
    rintro rfl
    apply outside side
    rw [handlesOf, found]
    exact inTree
  · rw [readNode_free, update_self]
    refine shape.chain.congr ?_
    intro x inFree
    rw [← readNode_free]
    apply other
    rintro rfl
    exact notFree inFree

def turn (l : Ladder) (side : OrderSide) (value : Nat) : List Frame → Ladder
  | [] => l.writeRoot side value
  | f :: _ => l.writeNode f.handle (f.cell value)

variable {side : OrderSide}

theorem setLink_path {fs : List Frame} (path : HeldPath l.readNode fs h) (value : Nat) :
    l.setLink side (linkOf fs) value = .ok (l.turn side value fs) := by
  cases fs with
  | nil => rfl
  | cons f fs =>
    have here := path.1
    rw [linkOf, setLink, here, turn, Frame.cell, Frame.cell]
    cases f.right <;> rfl

variable {pending' : List Nat}

theorem owned_update (freed : List Nat) (side : OrderSide) (t : Option Trie)
    (perm : (handlesOf t ++ pending').Perm (handlesOf (tree side) ++ pending)) :
    (owned (update tree side t) pending' freed).Perm (owned tree pending freed) := by
  cases side with
  | buy =>
    -- the sell tree is moved out of the way
    have front : ∀ a b c d : List Nat, (a ++ (b ++ (c ++ d))).Perm ((a ++ c) ++ (b ++ d)) := by
      intro a b c d
      rw [append_assoc]
      refine List.Perm.append_left _ ?_
      rw [← append_assoc, ← append_assoc]
      exact List.perm_append_comm.append_right _
    exact (front _ _ _ _).trans ((perm.append_right _).trans (front _ _ _ _).symm)
  | sell =>
    refine List.Perm.append_left _ ?_
    rw [← append_assoc, ← append_assoc]
    exact perm.append_right _

/-- One tree is exchanged for another, whose handles come from the old one and from those in hand; only nodes of the new
tree are written. -/
theorem Shape.exchange (shape : Shape l tree pending freed) {l' : Ladder} {new : Option Trie}
    (perm : (handlesOf new ++ pending').Perm (handlesOf (tree side) ++ pending))
    (root : l'.root = update l.root side (new.elim 0 handle))
    (held : ∀ t, new = some t → t.Held l'.readNode ∧ t.Ordered 64)
    (kept : ∀ x, x ∉ handlesOf new → l'.readNode x = l.readNode x)
    (head : l'.freeHead = l.freeHead) (next : l'.nextHandle = l.nextHandle) :
    Shape l' (update tree side new) pending' freed := by
  have all := owned_update freed side new perm
  have nodup := all.nodup_iff.mpr shape.apart
  have apart := apart_of_nodup nodup
  have inNew : ∀ x, x ∈ handlesOf new → x ∈ handlesOf (update tree side new side) := by
    intro x member
    rwa [update_self]
  refine ⟨?_, ?_, ?_, ?_, nodup, ?_⟩
  · intro s
    rw [root]
    by_cases here : s = side
    · subst here
      rw [update_self, update_self]
    · rw [update_of_ne here, update_of_ne here, shape.root]
  · intro s t found
    by_cases here : s = side
    · subst here
      rw [update_self] at found
      exact (held t found).1
    · have old := found
      rw [update_of_ne here] at old
      refine (shape.held s t old).congr ?_
      intro x inTree
      apply kept
      intro member
      apply here
      refine apart.trees s side x ?_ (inNew x member)
      rw [found]
      exact inTree
  · intro s t found
    by_cases here : s = side
    · subst here
      rw [update_self] at found
      exact (held t found).2
    · rw [update_of_ne here] at found
      exact shape.ordered s t found
  · rw [head]
    refine shape.chain.congr ?_
    intro x inFree
    apply kept
    intro member
    exact apart.tree_free side x (inNew x member) inFree
  · unfold upcoming
    rw [next]
    exact fun x member => shape.range x (all.mem_iff.mp member)

theorem turn_fields (l : Ladder) (side : OrderSide) (value : Nat) (fs : List Frame) :
    (l.turn side value fs).freeHead = l.freeHead ∧ (l.turn side value fs).nextHandle = l.nextHandle := by
  cases fs with
  | nil => exact ⟨rfl, rfl⟩
  | cons f fs =>
    rw [turn]
    cases f.cell value <;> exact ⟨rfl, rfl⟩

theorem Shape.relink (shape : Shape l tree pending freed) {fs : List Frame} {cur new : Trie}
    (whole : tree side = some (plug fs cur)) (held : new.Held l.readNode)
    (perm : (new.handles ++ pending').Perm (cur.handles ++ pending)) (ordered : (plug fs new).Ordered 64) :
    l.setLink side (linkOf fs) new.handle = .ok (l.turn side new.handle fs) ∧
      Shape (l.turn side new.handle fs) (update tree side (some (plug fs new))) pending' freed := by
  have path := ((held_plug fs cur).mp (shape.held side _ whole)).1
  have parts : (handlesOf (some (plug fs new)) ++ pending').Perm (handlesOf (tree side) ++ pending) := by
    rw [whole]
    have swap : ∀ a b c : List Nat, ((a ++ b) ++ c).Perm ((a ++ c) ++ b) := by
      intro a b c
      rw [append_assoc, append_assoc]
      exact List.perm_append_comm.append_left _
    calc List.Perm (handlesOf (some (plug fs new)) ++ pending') ((new.handles ++ pathHandles fs) ++ pending') :=
          (handles_plug fs new).append_right _
      List.Perm _ ((new.handles ++ pending') ++ pathHandles fs) := swap _ _ _
      List.Perm _ ((cur.handles ++ pending) ++ pathHandles fs) := perm.append_right _
      List.Perm _ ((cur.handles ++ pathHandles fs) ++ pending) := swap _ _ _
      List.Perm _ (handlesOf (some (plug fs cur)) ++ pending) := ((handles_plug fs cur).append_right _).symm
  have own : (plug fs new).handles.Nodup := by
    have nodup := (owned_update freed side (some (plug fs new)) parts).nodup_iff.mpr shape.apart
    have mine := (apart_of_nodup nodup).tree_nodup side
    rwa [update_self] at mine
  refine ⟨setLink_path path new.handle, ?_⟩
  refine shape.exchange parts ?_ ?_ ?_ (turn_fields _ _ _ _).1 (turn_fields _ _ _ _).2
  · cases fs with
    | nil => rfl
    | cons f fs =>
      have same : l.root side = (plug (f :: fs) new).handle := by
        rw [shape.root, whole, Option.elim_some, handle_plug, handle_plug]
        rfl
      rw [Option.elim_some, ← same, update_eq_self, turn]
      cases f.cell new.handle <;> rfl
  · rintro t ⟨⟩
    refine ⟨?_, ordered⟩
    cases fs with
    | nil => exact held
    | cons f fs =>
      have split := (handles_plug (f :: fs) new).nodup_iff.mp own
      rw [pathHandles, nodup_append, cons_append, nodup_cons] at split
      obtain ⟨-, ⟨notAbove, -⟩, disjoint⟩ := split
      have written : ∀ x, x ≠ f.handle → (l.turn side new.handle (f :: fs)).readNode x = l.readNode x := by
        intro x differ
        rw [turn, readNode_writeNode, update_of_ne differ]
      have turned : (l.turn side new.handle (f :: fs)).readNode f.handle = f.cell new.handle := by
        rw [turn, readNode_writeNode, update_self]
      refine (held_plug (f :: fs) new).mpr ⟨path.turn turned written notAbove, held.congr ?_⟩
      intro x inNew
      apply written
      rintro rfl
      exact disjoint f.handle inNew f.handle mem_cons_self rfl
  · intro x outside
    cases fs with
    | nil => rfl
    | cons f fs =>
      rw [turn, readNode_writeNode, update_of_ne]
      rintro rfl
      apply outside
      exact (handles_plug (f :: fs) new).mem_iff.mpr (mem_append_right _ mem_cons_self)

end AceChain.Liquid.Ladder
