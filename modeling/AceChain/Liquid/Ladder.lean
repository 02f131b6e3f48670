import AceChain.Lib.CritBitHeap
import AceChain.Liquid.Types

namespace AceChain.Liquid

open Lib CritBit

structure RawNode where
  tag : UInt8
  crit : Nat
  first : Nat
  second : Nat
deriving DecidableEq

/-- The price ladders of one market. Both trees draw their nodes from one arena; a slot never written is zero. -/
structure Ladder where
  root : OrderSide → Nat
  node : Nat → RawNode
  nextHandle : Nat
  freeHead : Nat

inductive Link where
  | root
  | child (parent direction : Nat)
deriving DecidableEq

def tagFree : UInt8 := 0

def tagInner : UInt8 := 1

def tagLeaf : UInt8 := 2

def dir (key crit : Nat) : Nat := (key >>> crit) &&& 1

def highestBit (x : Nat) : Nat := x.log2

namespace Ladder

def empty : Ladder := ⟨fun _ => 0, fun _ => ⟨0, 0, 0, 0⟩, 0, 0⟩

variable (l : Ladder)

def readNode (handle : Nat) : Node :=
  let v := l.node handle
  if v.tag = tagInner then .inner v.crit v.first v.second
  else .leaf v.first

def writeRawNode (handle : Nat) (v : RawNode) : Ladder := { l with node := Function.update l.node handle v }

def writeNode (handle : Nat) : Node → Ladder
  | .inner crit left right => l.writeRawNode handle ⟨tagInner, crit, left, right⟩
  | .leaf key => l.writeRawNode handle ⟨tagLeaf, 0, key, 0⟩

variable (side : OrderSide)

def writeRoot (handle : Nat) : Ladder := { l with root := Function.update l.root side handle }

/-- A free node keeps the next free handle where a leaf keeps its key. The counter wraps. -/
def alloc : Nat × Ladder :=
  if l.freeHead ≠ 0 then
    let next :=
      match l.readNode l.freeHead with
      | .leaf key => key
      | .inner _ _ _ => 0
    (l.freeHead, { l with freeHead := next })
  else
    let nextHandle := max l.nextHandle 1
    (nextHandle, { l with nextHandle := u64Add nextHandle 1 })

def free (handle : Nat) : Ladder :=
  { l.writeRawNode handle ⟨tagFree, 0, l.freeHead, 0⟩ with freeHead := handle }

def setLink (link : Link) (value : Nat) : Except Fault Ladder :=
  match link with
  | .root => .ok (l.writeRoot side value)
  | .child parent direction =>
    match l.readNode parent with
    | .inner crit left right =>
      .ok (l.writeNode parent (if direction = 0 then .inner crit value right else .inner crit left value))
    | .leaf _ => .error .unreachable

def walk (l : Ladder) (key : Nat) : Nat → Nat → Except Fault Nat
  | 0, _ => .error .outOfFuel
  | fuel + 1, p =>
    match l.readNode p with
    | .inner crit left right => l.walk key fuel (if dir key crit = 0 then left else right)
    | .leaf _ => .ok p

/-- The second walk: down to the first node that does not branch above the bit. -/
def seek (l : Ladder) (key bit : Nat) : Nat → Link → Nat → Except Fault (Link × Nat)
  | 0, _, _ => .error .outOfFuel
  | fuel + 1, link, cur =>
    match l.readNode cur with
    | .inner crit left right =>
      if bit < crit then
        l.seek key bit fuel (.child cur (dir key crit)) (if dir key crit = 0 then left else right)
      else .ok (link, cur)
    | .leaf _ => .ok (link, cur)

def attach (key bit : Nat) (link : Link) (cur : Nat) : Except Fault Ladder :=
  let (newLeaf, l) := l.alloc
  let l := l.writeNode newLeaf (.leaf key)
  let (newInner, l) := l.alloc
  let l := l.writeNode newInner (if dir key bit = 0 then .inner bit newLeaf cur else .inner bit cur newLeaf)
  l.setLink side link newInner

variable (fuel : Nat)

def insert (l : Ladder) (side : OrderSide) (key : Nat) : Except Fault Ladder :=
  let root := l.root side
  if root = 0 then
    let (leaf, l) := l.alloc
    .ok ((l.writeNode leaf (.leaf key)).writeRoot side leaf)
  else
    match l.walk key fuel root with
    | .error fault => .error fault
    | .ok p =>
      match l.readNode p with
      | .inner _ _ _ => .error .unreachable
      | .leaf leafKey =>
        if leafKey = key then .ok l
        else
          let bit := highestBit (key ^^^ leafKey)
          match l.seek key bit fuel .root root with
          | .error fault => .error fault
          | .ok (link, cur) => l.attach side key bit link cur

/-- Where the walk of a removal ends: the leaf with the link to it and, unless it is the root, its parent with the link
to that and the direction taken there. -/
structure Descent where
  link : Link
  leaf : Nat
  parent : Option (Link × Nat × Nat)
deriving DecidableEq

def descend (l : Ladder) (key : Nat) : Nat → Descent → Except Fault (Option Descent)
  | 0, _ => .error .outOfFuel
  | fuel + 1, d =>
    match l.readNode d.leaf with
    | .inner crit left right =>
      l.descend key fuel ⟨.child d.leaf (dir key crit), if dir key crit = 0 then left else right,
        some (d.link, d.leaf, dir key crit)⟩
    | .leaf leafKey => .ok (if leafKey ≠ key then none else some d)

/-- The leaf is freed, its sibling takes the place of the parent, and the parent is freed. -/
def detach (d : Descent) : Except Fault Ladder :=
  let l := l.free d.leaf
  match d.parent with
  | none => .ok (l.writeRoot side 0)
  | some (linkToParent, parent, direction) =>
    match l.readNode parent with
    | .leaf _ => .error .unreachable
    | .inner _ left right =>
      match l.setLink side linkToParent (if direction = 0 then right else left) with
      | .error fault => .error fault
      | .ok l => .ok (l.free parent)

def remove (l : Ladder) (side : OrderSide) (key : Nat) : Except Fault Ladder :=
  let root := l.root side
  if root = 0 then .ok l
  else
    match l.descend key fuel ⟨.root, root, none⟩ with
    | .error fault => .error fault
    | .ok none => .ok l
    | .ok (some d) => l.detach side d

def outermost (l : Ladder) (child : Nat) : Nat → Nat → Except Fault Nat
  | 0, _ => .error .outOfFuel
  | fuel + 1, p =>
    match l.readNode p with
    | .inner _ left right => l.outermost child fuel (if child = 0 then left else right)
    | .leaf key => .ok key

def extreme (l : Ladder) (side : OrderSide) (child : Nat) : Except Fault (Option Nat) :=
  let root := l.root side
  if root = 0 then .ok none
  else (l.outermost child fuel root).map some

def min (l : Ladder) (side : OrderSide) : Except Fault (Option Nat) := l.extreme fuel side 0

def max (l : Ladder) (side : OrderSide) : Except Fault (Option Nat) := l.extreme fuel side 1

end Ladder

end AceChain.Liquid
