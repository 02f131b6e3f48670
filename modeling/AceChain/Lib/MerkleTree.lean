import Mathlib.Data.List.Basic

namespace AceChain.Lib

open List

variable {α β γ δ : Type*}

section Levels

variable (join : γ → γ → γ)

/-- One level up: neighbours are joined, and an odd last node is promoted as it is. -/
def pairUp : List γ → List γ
  | a :: b :: rest => join a b :: pairUp rest
  | rest => rest

def pairUpAll : Nat → List γ → List γ
  | 0, nodes => nodes
  | fuel + 1, nodes => if 1 < nodes.length then pairUpAll fuel (pairUp join nodes) else nodes

theorem length_pairUp : ∀ nodes : List γ, (pairUp join nodes).length = (nodes.length + 1) / 2
  | [] => by simp [pairUp]
  | [_] => by simp [pairUp]
  | _ :: _ :: rest => by
    have tail := length_pairUp rest
    simp only [pairUp, length_cons, tail]
    omega

theorem pairUpAll_single (fuel : Nat) {nodes : List γ} (some_ : nodes ≠ []) (enough : nodes.length ≤ fuel + 1) :
    ∃ top, pairUpAll join fuel nodes = [top] := by
  induction fuel generalizing nodes with
  | zero =>
    have positive := List.length_pos_iff.mpr some_
    have one : nodes.length = 1 := by omega
    exact List.length_eq_one_iff.mp one
  | succ fuel ih =>
    have positive := List.length_pos_iff.mpr some_
    have length := length_pairUp join nodes
    unfold pairUpAll
    split
    · exact ih (List.length_pos_iff.mp (by omega)) (by omega)
    · have one : nodes.length = 1 := by omega
      exact List.length_eq_one_iff.mp one

variable {join} {join' : δ → δ → δ} {f : γ → δ}

theorem map_pairUp (joins : ∀ a b, f (join a b) = join' (f a) (f b)) :
    ∀ nodes : List γ, (pairUp join nodes).map f = pairUp join' (nodes.map f)
  | [] => rfl
  | [_] => rfl
  | a :: b :: rest => by simp [pairUp, joins, map_pairUp joins rest]

theorem map_pairUpAll (joins : ∀ a b, f (join a b) = join' (f a) (f b)) (fuel : Nat) (nodes : List γ) :
    (pairUpAll join fuel nodes).map f = pairUpAll join' fuel (nodes.map f) := by
  induction fuel generalizing nodes with
  | zero => rfl
  | succ fuel ih =>
    unfold pairUpAll
    rw [length_map]
    split
    · rw [ih, map_pairUp joins]
    · rfl

end Levels

/-- What a root over promoted nodes is the digest of. -/
inductive MerkleTree (β : Type*) where
  | leaf (content : β)
  | node (left right : MerkleTree β)

namespace MerkleTree

def leaves : MerkleTree β → List β
  | leaf content => [content]
  | node left right => left.leaves ++ right.leaves

section

variable (digest : β ⊕ α × α → α)

def root : MerkleTree β → α
  | leaf content => digest (.inl content)
  | node left right => digest (.inr (left.root, right.root))

def inputs : MerkleTree β → List (β ⊕ α × α)
  | leaf content => [.inl content]
  | node left right => .inr (left.root digest, right.root digest) :: (left.inputs ++ right.inputs)

variable {digest} {t t' : MerkleTree β}

theorem mem_leaves_of_mem_inputs {content : β} (member : .inl content ∈ t.inputs digest) : content ∈ t.leaves := by
  induction t with
  | leaf own => simpa [inputs, leaves] using member
  | node left right first second =>
    simp only [inputs, mem_cons, reduceCtorEq, mem_append, false_or] at member
    exact List.mem_append.mpr (member.imp first second)

theorem root_mem (digest : β ⊕ α × α → α) (t : MerkleTree β) : ∃ x ∈ t.inputs digest, t.root digest = digest x := by
  cases t with
  | leaf content => exact ⟨_, mem_singleton_self _, rfl⟩
  | node left right => exact ⟨_, mem_cons_self, rfl⟩

theorem eq_of_root_eq (free : ∀ x ∈ t.inputs digest, ∀ y ∈ t'.inputs digest, digest x = digest y → x = y)
    (same : t.root digest = t'.root digest) : t = t' := by
  induction t generalizing t' with
  | leaf content =>
    cases t' with
    | leaf content' => rw [Sum.inl.inj (free _ (mem_singleton_self _) _ (mem_singleton_self _) same)]
    | node left right => cases free _ (mem_singleton_self _) _ mem_cons_self same
  | node left right first second =>
    cases t' with
    | leaf content => cases free _ mem_cons_self _ (mem_singleton_self _) same
    | node left' right' =>
      obtain ⟨lefts, rights⟩ := Prod.mk.inj (Sum.inr.inj (free _ mem_cons_self _ mem_cons_self same))
      rw [first (fun x at_ y at' => free x (by simp [inputs, at_]) y (by simp [inputs, at'])) lefts,
        second (fun x at_ y at' => free x (by simp [inputs, at_]) y (by simp [inputs, at'])) rights]

end

theorem leaves_pairUp : ∀ trees : List (MerkleTree β), (pairUp node trees).flatMap leaves = trees.flatMap leaves
  | [] => rfl
  | [_] => rfl
  | first :: second :: rest => by
    have tail := leaves_pairUp rest
    simp [pairUp, leaves, tail]

theorem leaves_pairUpAll (fuel : Nat) (trees : List (MerkleTree β)) :
    (pairUpAll node fuel trees).flatMap leaves = trees.flatMap leaves := by
  induction fuel generalizing trees with
  | zero => rfl
  | succ fuel ih =>
    unfold pairUpAll
    split
    · rw [ih, leaves_pairUp]
    · rfl

end MerkleTree

end AceChain.Lib
