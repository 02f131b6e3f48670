import AceChain.Lib.Runs
import AceChain.Liquid.LadderShape

namespace AceChain.Liquid.Ladder

open Lib CritBit Function Trie Ladder

variable {l : Ladder} {tree : OrderSide → Option Trie} {pending freed : List Nat} {fuel key : Nat} {side : OrderSide}

theorem highestBit_lt {x y : Nat} (first : x < 2 ^ 64) (second : y < 2 ^ 64) (differ : x ≠ y) : highestBit (x ^^^ y) < 64 := by
  have nonzero : x ^^^ y ≠ 0 := fun same => differ (Nat.xor_eq_zero_iff.mp same)
  exact (Nat.log2_lt nonzero).mpr (Nat.xor_lt_two_pow first second)

theorem readNode_alloc (l : Ladder) : l.alloc.2.readNode = l.readNode := by
  unfold alloc
  by_cases empty : l.freeHead ≠ 0
  · rw [if_pos empty]
    rfl
  · rw [if_neg empty]
    rfl

@[simp] theorem upcoming_writeNode (l : Ladder) (h : Nat) (n : Node) : (l.writeNode h n).upcoming = l.upcoming := by
  cases n <;> rfl

theorem upcoming_turn (l : Ladder) (side : OrderSide) (value : Nat) (fs : List Frame) :
    (l.turn side value fs).upcoming = l.upcoming := by
  unfold upcoming
  rw [(turn_fields l side value fs).2]

theorem Shape.attach (shape : Shape l tree [] freed) {fs : List Frame} {cur : Trie} {bit : Nat}
    (room : l.upcoming + 2 < 2 ^ 64) (whole : tree side = some (plug fs cur))
    (ordered : ∀ newLeaf newInner, (plug fs (cur.graft key bit newLeaf newInner)).Ordered 64) :
    ∃ l' freed' newLeaf newInner, l.attach side key bit (linkOf fs) cur.handle = .ok l' ∧ l'.upcoming ≤ l.upcoming + 2 ∧
      Shape l' (update tree side (some (plug fs (cur.graft key bit newLeaf newInner)))) [] freed' := by
  obtain ⟨freed₁, first, given₁⟩ := shape.alloc (by omega)
  let leaf := l.alloc.1
  let l₁ := l.alloc.2.writeNode leaf (.leaf key)
  have wrote : Shape l₁ tree [leaf] freed₁ := first.write List.mem_cons_self _
  have given : l₁.upcoming ≤ l.upcoming + 1 := by rwa [upcoming_writeNode]
  obtain ⟨freed₂, second, given₂⟩ := wrote.alloc (by omega)
  let inner := l₁.alloc.1
  let node : Node := if dir key bit = 0 then .inner bit leaf cur.handle else .inner bit cur.handle leaf
  let l₂ := l₁.alloc.2.writeNode inner node
  have built : Shape l₂ tree [inner, leaf] freed₂ := second.write List.mem_cons_self _
  have differ : leaf ≠ inner := by
    have apart := second.apart
    have pair := (List.nodup_append.mp (List.nodup_append.mp (List.nodup_append.mp apart).2.1).2.1).1
    intro same
    exact (List.nodup_cons.mp pair).1 (same ▸ List.mem_cons_self)
  have readLeaf : l₂.readNode leaf = .leaf key := by
    rw [readNode_writeNode, update_of_ne differ, readNode_alloc, readNode_writeNode, update_self]
  have readInner : l₂.readNode inner = node := by rw [readNode_writeNode, update_self]
  have rest := ((held_plug fs cur).mp (built.held side _ whole)).2
  have held : (cur.graft key bit leaf inner).Held l₂.readNode := by
    unfold graft
    by_cases set : key.testBit bit = true
    · rw [if_pos set]
      refine ⟨?_, rest, readLeaf⟩
      rw [readInner]
      exact if_neg (by rw [dir_fits, set]; decide)
    · rw [if_neg set]
      refine ⟨?_, readLeaf, rest⟩
      rw [readInner]
      exact if_pos ((dir_fits key bit).mpr (by simpa using set))
  have perm : ((cur.graft key bit leaf inner).handles ++ []).Perm (cur.handles ++ [inner, leaf]) := by
    rw [List.append_nil]
    have swap : ([inner, leaf] ++ cur.handles).Perm (cur.handles ++ [inner, leaf]) := List.perm_append_comm
    exact (handles_graft cur).trans swap
  obtain ⟨linked, done⟩ := built.relink whole held perm (ordered leaf inner)
  have top : (cur.graft key bit leaf inner).handle = inner := by
    unfold graft
    cases key.testBit bit <;> rfl
  rw [top] at linked done
  refine ⟨_, freed₂, leaf, inner, linked, ?_, done⟩
  rw [upcoming_turn, upcoming_writeNode]
  omega

def KeysAre (tree : OrderSide → Option Trie) (sets : OrderSide → Finset Nat) : Prop :=
  ∀ side k, k ∈ keysOf (tree side) ↔ k ∈ sets side

variable {sets : OrderSide → Finset Nat}

theorem KeysAre.update (keys : KeysAre tree sets) {t : Option Trie} {s : Finset Nat} (here : ∀ k, k ∈ keysOf t ↔ k ∈ s) :
    KeysAre (update tree side t) (update sets side s) := by
  intro side' k
  by_cases same : side' = side
  · subst same
    rw [update_self, update_self]
    exact here k
  · rw [update_of_ne same, update_of_ne same]
    exact keys side' k

def Represents (l : Ladder) (sets : OrderSide → Finset Nat) : Prop :=
  ∃ tree freed, Shape l tree [] freed ∧ KeysAre tree sets

theorem represents_empty : Represents empty (fun _ => ∅) := ⟨_, _, shape_empty, fun _ _ => by simp [keysOf]⟩

theorem root_eq_zero (shape : Shape l tree pending freed) (side : OrderSide) : l.root side = 0 ↔ tree side = none := by
  rw [shape.root]
  cases found : tree side with
  | none => simp
  | some t =>
    have member : t.handle ∈ owned tree pending freed := by
      refine mem_owned.mpr (Or.inl ⟨side, ?_⟩)
      rw [found]
      exact t.handle_mem
    have positive := (shape.range _ member).1
    simp only [Option.elim_some, reduceCtorEq, iff_false]
    omega

theorem Shape.rooted (shape : Shape l tree pending freed) {t : Trie} (found : tree side = some t) :
    l.root side = t.handle := by
  rw [shape.root, found, Option.elim_some]

theorem KeysAre.of_root (keys : KeysAre tree sets) (shape : Shape l tree pending freed) (filled : l.root side ≠ 0) :
    ∃ t, tree side = some t ∧ ∀ k, k ∈ t.keys ↔ k ∈ sets side := by
  obtain ⟨t, found⟩ := Option.ne_none_iff_exists'.mp (fun none_ => filled ((root_eq_zero shape side).mpr none_))
  refine ⟨t, found, fun k => ?_⟩
  rw [← keys side k, found]
  rfl

theorem Shape.plant (shape : Shape l tree [] freed) (room : l.upcoming + 1 < 2 ^ 64) (none_ : tree side = none)
    (key : Nat) :
    l.alloc.2.upcoming ≤ l.upcoming + 1 ∧ ∃ freed', Shape ((l.alloc.2.writeNode l.alloc.1 (.leaf key)).writeRoot side
      l.alloc.1) (update tree side (some (.leaf l.alloc.1 key))) [] freed' := by
  obtain ⟨freed', first, given⟩ := shape.alloc room
  have wrote := first.write List.mem_cons_self (.leaf key)
  refine ⟨given, freed', wrote.exchange ?_ rfl ?_ ?_ rfl rfl⟩
  · rw [none_]
    exact List.Perm.refl _
  · rintro t ⟨⟩
    refine ⟨?_, trivial⟩
    change (l.alloc.2.writeNode l.alloc.1 (.leaf key)).readNode l.alloc.1 = .leaf key
    rw [readNode_writeNode, update_self]
  · intro x _
    rfl

theorem insert_represents (enough : 64 < fuel) (small : key < 2 ^ 64) (bounded : ∀ k ∈ sets side, k < 2 ^ 64)
    (rep : Represents l sets) (room : l.upcoming + 2 < 2 ^ 64) :
    ∃ l', l.insert fuel side key = .ok l' ∧ l'.upcoming ≤ l.upcoming + 2 ∧
      Represents l' (update sets side (Insert.insert key (sets side))) := by
  obtain ⟨tree, freed, shape, keys⟩ := rep
  unfold insert
  by_cases empty : l.root side = 0
  · rw [if_pos empty]
    have none_ := (root_eq_zero shape side).mp empty
    obtain ⟨given, freed', planted⟩ := shape.plant (by omega) none_ key
    refine ⟨_, rfl, ?_, _, freed', planted, keys.update ?_⟩
    · change (l.alloc.2.writeNode _ _).upcoming ≤ _
      rw [upcoming_writeNode]
      omega
    intro k
    have nothing := keys side k
    rw [none_] at nothing
    rw [Finset.mem_insert, ← nothing]
    simp [keysOf, Trie.keys]
  · rw [if_neg empty]
    obtain ⟨t, found, members⟩ := keys.of_root shape empty
    have held := shape.held side t found
    have ordered := shape.ordered side t found
    obtain ⟨p, walked, reached⟩ := walk_held key held ordered enough
    rw [shape.rooted found, walked]
    dsimp only
    rw [reached]
    dsimp only
    by_cases there : t.find key = key
    · -- the key is in the tree already
      have inside := (members key).mp ((find_eq_iff ordered key).mp there)
      rw [if_pos there, Finset.insert_eq_of_mem inside, update_eq_self]
      exact ⟨l, rfl, Nat.le_add_right _ _, tree, freed, shape, keys⟩
    · rw [if_neg there]
      let bit := highestBit (key ^^^ t.find key)
      have sought := seek_held key bit [] held ordered enough
      have inside : bit < 64 := highestBit_lt small (bounded _ ((members _).mp (t.find_mem key))) (Ne.symm there)
      obtain ⟨differ, agree⟩ := differ_at_log2 (Ne.symm there)
      have whole : tree side = some (plug (t.seek key bit []).1 (t.seek key bit []).2) := by
        rw [plug_seek, found]
        rfl
      have grafted : ∀ newLeaf newInner, plug (t.seek key bit []).1 ((t.seek key bit []).2.graft key bit newLeaf newInner) =
          t.splice key bit newLeaf newInner := fun newLeaf newInner => plug_seek_graft key bit newLeaf newInner [] t
      obtain ⟨l', freed', newLeaf, newInner, attached, given, done⟩ := shape.attach room whole (fun newLeaf newInner => by
        rw [grafted]
        exact ordered.splice inside agree (Ne.symm differ))
      rw [grafted] at done
      change l.seek key bit fuel .root t.handle = _ at sought
      rw [sought]
      refine ⟨l', attached, given, _, freed', done, keys.update ?_⟩
      intro k
      rw [Finset.mem_insert, ← members]
      exact mem_keys_splice t k

theorem setLink_free (l : Ladder) (side : OrderSide) {fs : List Frame} {h p value : Nat} (path : HeldPath l.readNode fs h)
    (differ : p ∉ pathHandles fs) :
    (l.free p).setLink side (linkOf fs) value = .ok ((l.turn side value fs).free p) := by
  have kept : ∀ x ∈ pathHandles fs, (l.free p).readNode x = l.readNode x := by
    intro x member
    rw [readNode_free, update_of_ne]
    rintro rfl
    exact differ member
  rw [setLink_path (path.congr kept)]
  cases fs with
  | nil => rfl
  | cons f fs =>
    have apart : f.handle ≠ p := by
      rintro rfl
      exact differ List.mem_cons_self
    simp only [turn]
    cases f.cell value with
    | inner crit left right =>
      simp only [writeNode, writeRawNode, free, Except.ok.injEq, mk.injEq, true_and, and_true]
      exact update_comm apart.symm _ _ _
    | leaf key =>
      simp only [writeNode, writeRawNode, free, Except.ok.injEq, mk.injEq, true_and, and_true]
      exact update_comm apart.symm _ _ _

theorem Shape.uproot (shape : Shape l tree [] freed) {p : Nat} (whole : tree side = some (.leaf p key)) :
    Shape ((l.free p).writeRoot side 0) (update tree side none) [] (p :: freed) := by
  have cleared : Shape (l.writeRoot side 0) (update tree side none) [p] freed := by
    refine shape.exchange ?_ rfl ?_ ?_ rfl rfl
    · rw [whole]
      exact List.Perm.refl _
    · rintro t ⟨⟩
    · intro x _
      rfl
  exact cleared.free

theorem Shape.prune (shape : Shape l tree [] freed) {f : Frame} {fs : List Frame} {p : Nat}
    (whole : tree side = some (plug (f :: fs) (.leaf p key))) (ordered : (plug fs f.sibling).Ordered 64) :
    ∃ l', l.detach side ⟨linkOf (f :: fs), p, parentOf (f :: fs)⟩ = .ok l' ∧ l'.upcoming = l.upcoming ∧
      Shape l' (update tree side (some (plug fs f.sibling))) [] (f.handle :: p :: freed) := by
  have held := (held_plug (f :: fs) _).mp (shape.held side _ whole)
  obtain ⟨⟨here, sibling, path⟩, -⟩ := held
  have own : (plug (f :: fs) (.leaf p key)).handles.Nodup := by
    have mine := (apart_of_nodup shape.apart).tree_nodup side
    rwa [whole] at mine
  have split := (handles_plug (f :: fs) (.leaf p key)).nodup_iff.mp own
  have notBelow : p ∉ pathHandles (f :: fs) := (List.nodup_cons.mp split).1
  have notPath : p ∉ pathHandles fs := fun member => notBelow (List.mem_append_right _ member)
  have notParent : f.handle ≠ p := by
    rintro rfl
    exact notBelow List.mem_cons_self
  have perm : (f.sibling.handles ++ [p, f.handle]).Perm ((f.fill (.leaf p key)).handles ++ []) := by
    rw [List.append_nil]
    refine List.Perm.trans ?_ (f.handles_fill _).symm
    calc List.Perm (f.sibling.handles ++ [p, f.handle]) ([p, f.handle] ++ f.sibling.handles) := List.perm_append_comm
      List.Perm _ (p :: f.handle :: f.sibling.handles) := List.Perm.refl _
  have around : tree side = some (plug fs (f.fill (.leaf p key))) := whole
  obtain ⟨-, linked⟩ := shape.relink around sibling perm ordered
  refine ⟨((l.turn side f.sibling.handle fs).free p).free f.handle, ?_, upcoming_turn l side _ fs, linked.free.free⟩
  unfold detach
  simp only [parentOf]
  rw [readNode_free, update_of_ne notParent, here, Frame.cell]
  cases turned : f.right with
  | true =>
    simp only [Bool.toNat_true, if_true, one_ne_zero, if_false, handle]
    rw [setLink_free l side path notPath]
  | false =>
    simp only [Bool.toNat_false, Bool.false_eq_true, if_false, if_true]
    rw [setLink_free l side path notPath]

theorem remove_represents (enough : 64 < fuel) (rep : Represents l sets) :
    ∃ l', l.remove fuel side key = .ok l' ∧ l'.upcoming = l.upcoming ∧
      Represents l' (update sets side ((sets side).erase key)) := by
  obtain ⟨tree, freed, shape, keys⟩ := rep
  unfold remove
  by_cases empty : l.root side = 0
  · have none_ := (root_eq_zero shape side).mp empty
    have absent : key ∉ sets side := by
      rw [← keys side key, none_]
      simp [keysOf]
    rw [if_pos empty, Finset.erase_eq_of_notMem absent, update_eq_self]
    exact ⟨l, rfl, rfl, tree, freed, shape, keys⟩
  · rw [if_neg empty]
    obtain ⟨t, found, members⟩ := keys.of_root shape empty
    have held := shape.held side t found
    have ordered := shape.ordered side t found
    have walked := descend_held key [] held ordered enough
    change l.descend key fuel ⟨.root, t.handle, none⟩ = _ at walked
    rw [shape.rooted found, walked]
    by_cases there : t.find key = key
    · rw [if_neg (not_not.mpr there)]
      have whole := plug_descend key [] t
      have left := unlinked_descend key [] t
      have erased : ∀ k, k ∈ keysOf (t.remove key) ↔ k ∈ (sets side).erase key := by
        intro k
        rw [Finset.mem_erase, ← members, and_comm, ← mem_keys_remove ordered there]
        cases t.remove key <;> simp [keysOf]
      cases path : (t.descend key []).1 with
      | nil =>
        rw [path] at whole left
        have gone : t.remove key = none := by
          cases removed : t.remove key with
          | none => rfl
          | some t' =>
            rw [removed] at left
            cases left
        rw [gone] at erased
        refine ⟨_, rfl, rfl, _, _, shape.uproot (found.trans (congrArg some whole.symm)), keys.update erased⟩
      | cons f fs =>
        rw [path] at whole left
        have gone : t.remove key = some (plug fs f.sibling) := by
          cases removed : t.remove key with
          | none =>
            rw [removed] at left
            cases left
          | some t' =>
            rw [removed] at left
            exact left.symm
        rw [gone] at erased
        obtain ⟨l', detached, given, done⟩ := shape.prune (found.trans (congrArg some whole.symm)) (ordered.remove gone)
        exact ⟨l', detached, given, _, _, done, keys.update erased⟩
    · rw [if_pos there]
      have absent : key ∉ sets side := by
        rw [← members, ← find_eq_iff ordered]
        exact there
      rw [Finset.erase_eq_of_notMem absent, update_eq_self]
      exact ⟨l, rfl, rfl, tree, freed, shape, keys⟩

inductive Below (cells : Nat → Node) : Nat → Nat → Prop where
  | here (p : Nat) : Below cells p p
  | left {p crit left right h : Nat} : cells p = .inner crit left right → Below cells left h → Below cells p h
  | right {p crit left right h : Nat} : cells p = .inner crit left right → Below cells right h → Below cells p h

inductive Listed (cells : Nat → Node) : Nat → Nat → Prop where
  | here {p : Nat} : p ≠ 0 → Listed cells p p
  | next {p h : Nat} : p ≠ 0 → Listed cells (nextFree (cells p)) h → Listed cells p h

def Live (l : Ladder) (side : OrderSide) (h : Nat) : Prop := l.root side ≠ 0 ∧ Below l.readNode (l.root side) h

def Free (l : Ladder) (h : Nat) : Prop := Listed l.readNode l.freeHead h

def Contains (l : Ladder) (side : OrderSide) (key : Nat) : Prop := ∃ h, l.Live side h ∧ l.readNode h = .leaf key

section

variable {cells : Nat → Node} {t : Trie} {h : Nat}

theorem below_iff (held : t.Held cells) : Below cells t.handle h ↔ h ∈ t.handles := by
  constructor
  · intro below
    generalize start : t.handle = p at below
    induction below generalizing t with
    | here p => exact start ▸ t.handle_mem
    | left inner _ ih =>
      cases t with
      | leaf h' k =>
        have leaf : cells h' = .leaf k := held
        rw [← start, handle, leaf] at inner
        cases inner
      | node h' crit l r =>
        rw [← start, handle, held.1] at inner
        cases inner
        exact List.mem_cons_of_mem _ (List.mem_append_left _ (ih held.2.1 rfl))
    | right inner _ ih =>
      cases t with
      | leaf h' k =>
        have leaf : cells h' = .leaf k := held
        rw [← start, handle, leaf] at inner
        cases inner
      | node h' crit l r =>
        rw [← start, handle, held.1] at inner
        cases inner
        exact List.mem_cons_of_mem _ (List.mem_append_right _ (ih held.2.2 rfl))
  · intro member
    induction t with
    | leaf h' k =>
      rw [List.mem_singleton.mp member]
      exact .here _
    | node h' crit l r left right =>
      obtain ⟨here, hl, hr⟩ := held
      rcases List.mem_cons.mp member with rfl | deeper
      · exact .here _
      · rcases List.mem_append.mp deeper with inLeft | inRight
        · exact .left here (left hl inLeft)
        · exact .right here (right hr inRight)

theorem leaf_iff (held : t.Held cells) (key : Nat) : (∃ h ∈ t.handles, cells h = .leaf key) ↔ key ∈ t.keys := by
  induction t with
  | leaf h k =>
    have here : cells h = .leaf k := held
    simp only [handles, keys, List.mem_singleton, exists_eq_left, here, Node.leaf.injEq]
    exact eq_comm
  | node h crit l r left right =>
    obtain ⟨here, hl, hr⟩ := held
    rw [keys, List.mem_append, ← left hl, ← right hr]
    constructor
    · rintro ⟨x, member, leaf⟩
      rcases List.mem_cons.mp member with rfl | deeper
      · rw [here] at leaf
        cases leaf
      · rcases List.mem_append.mp deeper with inLeft | inRight
        · exact Or.inl ⟨x, inLeft, leaf⟩
        · exact Or.inr ⟨x, inRight, leaf⟩
    · rintro (⟨x, inLeft, leaf⟩ | ⟨x, inRight, leaf⟩)
      · exact ⟨x, List.mem_cons_of_mem _ (List.mem_append_left _ inLeft), leaf⟩
      · exact ⟨x, List.mem_cons_of_mem _ (List.mem_append_right _ inRight), leaf⟩

theorem mem_of_listed {head : Nat} {xs : List Nat} (chain : Chain cells head xs) (listed : Listed cells head h) : h ∈ xs := by
  induction listed generalizing xs with
  | here nonzero =>
    cases xs with
    | nil => exact absurd chain nonzero
    | cons x xs => exact chain.1 ▸ List.mem_cons_self
  | next nonzero _ ih =>
    cases xs with
    | nil => exact absurd chain nonzero
    | cons x xs =>
      refine List.mem_cons_of_mem _ (ih ?_)
      rw [chain.1]
      exact chain.2

end

theorem live_iff (shape : Shape l tree pending freed) (side : OrderSide) (h : Nat) :
    l.Live side h ↔ h ∈ handlesOf (tree side) := by
  unfold Live
  rw [Ne, root_eq_zero shape side]
  cases found : tree side with
  | none => simp [handlesOf]
  | some t =>
    rw [shape.rooted found, below_iff (shape.held side t found)]
    simp [handlesOf]

/-- The words of an arena against two finite sets of keys. -/
structure Refines (fuel : Nat) (l : Ladder) (sets : OrderSide → Finset Nat) : Prop where
  members : ∀ side key, l.Contains side key ↔ key ∈ sets side
  min : ∀ side, ∃ least, l.min fuel side = .ok least ∧
    match least with
    | none => sets side = ∅
    | some k => IsLeast (sets side : Set Nat) k
  max : ∀ side, ∃ greatest, l.max fuel side = .ok greatest ∧
    match greatest with
    | none => sets side = ∅
    | some k => IsGreatest (sets side : Set Nat) k
  trees_apart : ∀ h, ¬ (l.Live .buy h ∧ l.Live .sell h)
  free_apart : ∀ side h, ¬ (l.Live side h ∧ l.Free h)

theorem Represents.refines (rep : Represents l sets) (enough : 64 < fuel) : Refines fuel l sets := by
  obtain ⟨tree, freed, shape, keys⟩ := rep
  have apart := apart_of_nodup shape.apart
  have ends : ∀ side, (tree side = none ∧ sets side = ∅ ∧ l.min fuel side = .ok none ∧ l.max fuel side = .ok none) ∨
      ∃ t, l.min fuel side = .ok (some t.least) ∧ l.max fuel side = .ok (some t.greatest) ∧
        (∀ k, k ∈ t.keys ↔ k ∈ sets side) ∧ Ordered 64 t := by
    intro side
    unfold min max extreme
    cases found : tree side with
    | none =>
      have zero := (root_eq_zero shape side).mpr found
      refine Or.inl ⟨rfl, ?_, by simp [zero], by simp [zero]⟩
      rw [Finset.eq_empty_iff_forall_notMem]
      intro k member
      rw [← keys side k, found] at member
      cases member
    | some t =>
      have nonzero : l.root side ≠ 0 := by
        rw [Ne, root_eq_zero shape side, found]
        simp
      have ordered := shape.ordered side t found
      obtain ⟨low, high⟩ := outermost_held (shape.held side t found) ordered enough
      refine Or.inr ⟨t, ?_, ?_, ?_, ordered⟩
      · rw [if_neg nonzero, shape.rooted found, low]
        rfl
      · rw [if_neg nonzero, shape.rooted found, high]
        rfl
      · intro k
        rw [← keys side k, found]
        rfl
  refine ⟨?_, ?_, ?_, ?_, ?_⟩
  · intro side key
    unfold Contains
    simp only [live_iff shape]
    rw [← keys side key]
    cases found : tree side with
    | none => simp [handlesOf, keysOf]
    | some t => exact leaf_iff (shape.held side t found) key
  · intro side
    rcases ends side with ⟨-, noKeys, low, -⟩ | ⟨t, low, -, members, ordered⟩
    · exact ⟨none, low, noKeys⟩
    · exact ⟨some t.least, low, (members _).mp t.least_mem, fun k member => least_le ordered k ((members k).mpr member)⟩
  · intro side
    rcases ends side with ⟨-, noKeys, -, high⟩ | ⟨t, -, high, members, ordered⟩
    · exact ⟨none, high, noKeys⟩
    · exact ⟨some t.greatest, high, (members _).mp t.greatest_mem,
        fun k member => le_greatest ordered k ((members k).mpr member)⟩
  · rintro h ⟨buy, sell⟩
    rw [live_iff shape] at buy sell
    cases apart.trees .buy .sell h buy sell
  · rintro side h ⟨live, free⟩
    rw [live_iff shape] at live
    exact apart.tree_free side h live (mem_of_listed shape.chain free)

inductive LadderOp where
  | insert (side : OrderSide) (key : UInt64)
  | remove (side : OrderSide) (key : UInt64)
deriving DecidableEq

namespace LadderOp

def call (fuel : Nat) (l : Ladder) : LadderOp → Except Fault Ladder
  | insert side key => l.insert fuel side key.toNat
  | remove side key => l.remove fuel side key.toNat

def onSets (sets : OrderSide → Finset Nat) : LadderOp → OrderSide → Finset Nat
  | insert side key => update sets side (Insert.insert key.toNat (sets side))
  | remove side key => update sets side ((sets side).erase key.toNat)

end LadderOp

open LadderOp

def calls (fuel : Nat) (ops : List LadderOp) (l : Ladder) : Except Fault Ladder := ops.foldlM (call fuel) l

def setsAfter (ops : List LadderOp) (sets : OrderSide → Finset Nat) : OrderSide → Finset Nat := ops.foldl onSets sets

theorem call_represents (enough : 64 < fuel) (bounded : ∀ side, ∀ k ∈ sets side, k < 2 ^ 64) (rep : Represents l sets)
    (room : l.upcoming + 2 < 2 ^ 64) (op : LadderOp) :
    ∃ l', op.call fuel l = .ok l' ∧ l'.upcoming ≤ l.upcoming + 2 ∧ Represents l' (op.onSets sets) := by
  cases op with
  | insert side key => exact insert_represents enough key.toNat_lt (bounded side) rep room
  | remove side key =>
    obtain ⟨l', removed, given, rep'⟩ := remove_represents enough rep
    exact ⟨l', removed, by omega, rep'⟩

theorem onSets_bounded (bounded : ∀ side, ∀ k ∈ sets side, k < 2 ^ 64) (op : LadderOp) :
    ∀ side, ∀ k ∈ op.onSets sets side, k < 2 ^ 64 := by
  intro side k member
  cases op with
  | insert side' key =>
    by_cases here : side = side'
    · subst here
      rw [onSets, update_self] at member
      rcases Finset.mem_insert.mp member with rfl | old
      · exact key.toNat_lt
      · exact bounded side k old
    · rw [onSets, update_of_ne here] at member
      exact bounded side k member
  | remove side' key =>
    by_cases here : side = side'
    · subst here
      rw [onSets, update_self] at member
      exact bounded side k (Finset.mem_of_mem_erase member)
    · rw [onSets, update_of_ne here] at member
      exact bounded side k member

theorem calls_represent (enough : 64 < fuel) (ops : List LadderOp) (bounded : ∀ side, ∀ k ∈ sets side, k < 2 ^ 64)
    (rep : Represents l sets) (room : l.upcoming + 2 * ops.length < 2 ^ 64) :
    ∃ l', calls fuel ops l = .ok l' ∧ Represents l' (setsAfter ops sets) := by
  induction ops generalizing l sets with
  | nil => exact ⟨l, rfl, rep⟩
  | cons op ops ih =>
    rw [List.length_cons] at room
    obtain ⟨l₁, called, given, rep₁⟩ := call_represents enough bounded rep (by omega) op
    obtain ⟨l₂, rest, rep₂⟩ := ih (onSets_bounded bounded op) rep₁ (by omega)
    refine ⟨l₂, ?_, rep₂⟩
    unfold calls
    rw [List.foldlM_cons, called]
    exact rest

/-- Fewer than 2 ^ 63 calls on the two ladders of a fresh market, so that the counter of handles does not wrap, return,
whatever the loops are granted beyond 65 rounds, and the arena refines the two sets of keys. -/
theorem calls_refine_sets (ops : List LadderOp) (extra : Nat) (few : ops.length < 2 ^ 63) :
    ∃ l, calls (65 + extra) ops empty = .ok l ∧ Refines (65 + extra) l (setsAfter ops (fun _ => ∅)) := by
  have enough : 64 < 65 + extra := by omega
  have room : empty.upcoming + 2 * ops.length < 2 ^ 64 := by
    have first : empty.upcoming = 1 := rfl
    omega
  obtain ⟨l, called, rep⟩ := calls_represent enough ops (fun _ k member => absurd member (Finset.notMem_empty k))
    represents_empty room
  exact ⟨l, called, rep.refines enough⟩

theorem shared_nodes_refine_sets : ∃ l, calls 65 [.insert .buy 5, .insert .sell 5, .insert .sell 7, .remove .buy 5,
    .insert .sell 6] empty = .ok l ∧ Refines 65 l (setsAfter [.insert .buy 5, .insert .sell 5, .insert .sell 7,
    .remove .buy 5, .insert .sell 6] (fun _ => ∅)) := calls_refine_sets _ 0 (by decide)

end AceChain.Liquid.Ladder
