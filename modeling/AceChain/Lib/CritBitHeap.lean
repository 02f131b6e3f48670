import AceChain.Lib.CritBit

namespace AceChain.Lib.CritBit

inductive Node where
  | inner (crit left right : Nat)
  | leaf (key : Nat)
deriving DecidableEq

variable {cells cells' : Nat → Node}

namespace Trie

def Held (cells : Nat → Node) : Trie → Prop
  | leaf h k => cells h = .leaf k
  | node h crit l r => cells h = .inner crit l.handle r.handle ∧ l.Held cells ∧ r.Held cells

theorem Held.congr {t : Trie} (held : t.Held cells) (same : ∀ h ∈ t.handles, cells' h = cells h) : t.Held cells' := by
  induction t with
  | leaf h k => exact (same h (List.mem_singleton_self h)).trans held
  | node h crit l r left right =>
    obtain ⟨here, lh, rh⟩ := held
    refine ⟨(same h List.mem_cons_self).trans here, left lh ?_, right rh ?_⟩
    · intro h' member
      exact same h' (List.mem_cons_of_mem _ (List.mem_append_left _ member))
    · intro h' member
      exact same h' (List.mem_cons_of_mem _ (List.mem_append_right _ member))

end Trie

structure Frame where
  handle : Nat
  crit : Nat
  right : Bool
  sibling : Trie

namespace Frame

variable (f : Frame) (t : Trie)

def fill : Trie :=
  if f.right then .node f.handle f.crit f.sibling t else .node f.handle f.crit t f.sibling

def cell (h : Nat) : Node :=
  if f.right then .inner f.crit f.sibling.handle h else .inner f.crit h f.sibling.handle

@[simp] theorem handle_fill : (f.fill t).handle = f.handle := by
  unfold fill
  cases f.right <;> rfl

theorem handles_fill : (f.fill t).handles.Perm (t.handles ++ (f.handle :: f.sibling.handles)) := by
  unfold fill
  cases f.right with
  | false =>
    exact List.perm_middle.symm
  | true =>
    refine List.Perm.trans ?_ List.perm_middle.symm
    exact List.perm_append_comm.cons _

theorem held_fill :
    (f.fill t).Held cells ↔ cells f.handle = f.cell t.handle ∧ f.sibling.Held cells ∧ t.Held cells := by
  unfold fill cell
  cases f.right with
  | false =>
    exact and_congr_right fun _ => and_comm
  | true =>
    exact Iff.rfl

end Frame

def plug : List Frame → Trie → Trie
  | [], t => t
  | f :: fs, t => plug fs (f.fill t)

def top : List Frame → Nat → Nat
  | [], h => h
  | f :: fs, _ => top fs f.handle

def pathHandles : List Frame → List Nat
  | [] => []
  | f :: fs => (f.handle :: f.sibling.handles) ++ pathHandles fs

def HeldPath (cells : Nat → Node) : List Frame → Nat → Prop
  | [], _ => True
  | f :: fs, h => cells f.handle = f.cell h ∧ f.sibling.Held cells ∧ HeldPath cells fs f.handle

variable (fs : List Frame)

theorem handle_plug (t : Trie) : (plug fs t).handle = top fs t.handle := by
  induction fs generalizing t with
  | nil => rfl
  | cons f fs ih => rw [plug, top, ih, Frame.handle_fill]

theorem handles_plug (t : Trie) : (plug fs t).handles.Perm (t.handles ++ pathHandles fs) := by
  induction fs generalizing t with
  | nil =>
    rw [pathHandles, List.append_nil]
    exact List.Perm.refl _
  | cons f fs ih =>
    rw [plug, pathHandles, ← List.append_assoc]
    exact (ih _).trans ((f.handles_fill t).append_right _)

theorem held_plug (t : Trie) :
    (plug fs t).Held cells ↔ HeldPath cells fs t.handle ∧ t.Held cells := by
  induction fs generalizing t with
  | nil => exact ⟨fun held => ⟨trivial, held⟩, And.right⟩
  | cons f fs ih =>
    rw [plug, ih, Frame.handle_fill, f.held_fill, HeldPath]
    grind

theorem HeldPath.congr {fs : List Frame} {h : Nat} (held : HeldPath cells fs h)
    (same : ∀ h ∈ pathHandles fs, cells' h = cells h) : HeldPath cells' fs h := by
  induction fs generalizing h with
  | nil => trivial
  | cons f fs ih =>
    obtain ⟨here, sibling, rest⟩ := held
    refine ⟨(same _ List.mem_cons_self).trans here, sibling.congr ?_, ih rest ?_⟩
    · intro h' member
      exact same h' (List.mem_cons_of_mem _ (List.mem_append_left _ member))
    · intro h' member
      exact same h' (List.mem_append_right _ member)

theorem HeldPath.turn {f : Frame} {fs : List Frame} {h h' : Nat} (held : HeldPath cells (f :: fs) h)
    (turned : cells' f.handle = f.cell h') (same : ∀ x, x ≠ f.handle → cells' x = cells x)
    (apart : f.handle ∉ f.sibling.handles ++ pathHandles fs) : HeldPath cells' (f :: fs) h' := by
  obtain ⟨-, sibling, rest⟩ := held
  have kept : ∀ x ∈ f.sibling.handles ++ pathHandles fs, cells' x = cells x := by
    intro x member
    apply same
    rintro rfl
    exact apart member
  exact ⟨turned, sibling.congr (fun x member => kept x (List.mem_append_left _ member)),
    rest.congr (fun x member => kept x (List.mem_append_right _ member))⟩

namespace Trie

def seek (key bit : Nat) : List Frame → Trie → List Frame × Trie
  | fs, leaf h k => (fs, leaf h k)
  | fs, node h crit l r =>
    if bit < crit then
      if key.testBit crit then seek key bit (⟨h, crit, true, l⟩ :: fs) r else seek key bit (⟨h, crit, false, r⟩ :: fs) l
    else (fs, node h crit l r)

theorem plug_seek (key bit : Nat) (fs : List Frame) (t : Trie) :
    plug (t.seek key bit fs).1 (t.seek key bit fs).2 = plug fs t := by
  induction t generalizing fs with
  | leaf => rfl
  | node h crit l r left right =>
    rw [seek]
    by_cases above : bit < crit
    · rw [if_pos above]
      by_cases set : key.testBit crit = true
      · rw [if_pos set, right, plug]
        rfl
      · rw [if_neg set, left, plug]
        rfl
    · rw [if_neg above]

theorem plug_seek_graft (key bit newLeaf newInner : Nat) (fs : List Frame) (t : Trie) :
    plug (t.seek key bit fs).1 ((t.seek key bit fs).2.graft key bit newLeaf newInner) =
      plug fs (t.splice key bit newLeaf newInner) := by
  induction t generalizing fs with
  | leaf => rfl
  | node h crit l r left right =>
    rw [seek, splice]
    by_cases above : bit < crit
    · rw [if_pos above, if_pos above]
      by_cases set : key.testBit crit = true
      · rw [if_pos set, if_pos set, right, plug]
        rfl
      · rw [if_neg set, if_neg set, left, plug]
        rfl
    · rw [if_neg above, if_neg above]

def descend (key : Nat) : List Frame → Trie → List Frame × Nat × Nat
  | fs, leaf h k => (fs, h, k)
  | fs, node h crit l r =>
    if key.testBit crit then descend key (⟨h, crit, true, l⟩ :: fs) r else descend key (⟨h, crit, false, r⟩ :: fs) l

theorem plug_descend (key : Nat) (fs : List Frame) (t : Trie) :
    plug (t.descend key fs).1 (leaf (t.descend key fs).2.1 (t.descend key fs).2.2) = plug fs t := by
  induction t generalizing fs with
  | leaf => rfl
  | node h crit l r left right =>
    rw [descend]
    by_cases set : key.testBit crit = true
    · rw [if_pos set, right, plug]
      rfl
    · rw [if_neg set, left, plug]
      rfl

/-- What `remove` leaves, read off the path: the sibling of the leaf takes its parent's place. -/
def unlinked : List Frame → Option Trie
  | [] => none
  | f :: fs => some (plug fs f.sibling)

theorem unlinked_descend (key : Nat) (fs : List Frame) (t : Trie) :
    unlinked (t.descend key fs).1 =
      match t.remove key with
      | some t' => some (plug fs t')
      | none => unlinked fs := by
  induction t generalizing fs with
  | leaf => rfl
  | node h crit l r left right =>
    rw [descend, remove]
    by_cases set : key.testBit crit = true
    · rw [if_pos set, if_pos set, right]
      cases r.remove key <;> rfl
    · rw [if_neg set, if_neg set, left]
      cases l.remove key <;> rfl

end Trie

end AceChain.Lib.CritBit
