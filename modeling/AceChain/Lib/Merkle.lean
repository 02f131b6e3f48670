import Mathlib.Data.List.Nodup
import Mathlib.Data.Set.Function
import Mathlib.Logic.Relation

namespace AceChain.Lib.Merkle

open Relation ReflTransGen List

variable {α : Type*}

def pairs : List α → List (α × α)
  | [] => []
  | [a] => [(a, a)]
  | a :: b :: rest => (a, b) :: pairs rest

variable (combine : α → α → α)

def level (nodes : List α) : List α := (pairs nodes).map (fun pair => combine pair.1 pair.2)

def collapse : Nat → List α → List α
  | 0, nodes => nodes
  | fuel + 1, nodes => if 1 < nodes.length then collapse fuel (level combine nodes) else nodes

def Rises (lower upper : List α) : Prop := 1 < lower.length ∧ upper = level combine lower

def combined (leaves : List α) : Set (α × α) :=
  {pair | ∃ nodes, ReflTransGen (Rises combine) leaves nodes ∧ 1 < nodes.length ∧ pair ∈ pairs nodes}

variable {combine} {xs ys zs : List α}

theorem length_pairs : ∀ nodes : List α, (pairs nodes).length = (nodes.length + 1) / 2
  | [] => by simp [pairs]
  | [_] => by simp [pairs]
  | _ :: _ :: rest => by
    have tail := length_pairs rest
    simp only [pairs, length_cons, tail]
    omega

theorem length_level (nodes : List α) : (level combine nodes).length = (nodes.length + 1) / 2 := by
  rw [level, length_map, length_pairs]

theorem pairs_fst_sublist : ∀ nodes : List α, ((pairs nodes).map Prod.fst).Sublist nodes
  | [] => .slnil
  | [a] => List.Sublist.refl [a]
  | a :: b :: rest => ((pairs_fst_sublist rest).cons b).cons_cons a

theorem nodup_pairs (distinct : xs.Nodup) : (pairs xs).Nodup :=
  List.Nodup.of_map Prod.fst (distinct.sublist (pairs_fst_sublist xs))

theorem pairs_injective : ∀ {xs ys : List α}, xs.Nodup → ys.Nodup → pairs xs = pairs ys → xs = ys
  | [], [], _, _, _ => rfl
  | [], [_], _, _, same => by cases same
  | [], _ :: _ :: _, _, _, same => by cases same
  | [_], [], _, _, same => by cases same
  | _ :: _ :: _, [], _, _, same => by cases same
  | [a], [b], _, _, same => by
    simp only [pairs, List.cons.injEq, Prod.mk.injEq, and_true] at same
    rw [same.1]
  | [a], b :: c :: rest, _, distinct, same => by
    simp only [pairs, List.cons.injEq, Prod.mk.injEq] at same
    have differ : b ≠ c := fun equal => (List.nodup_cons.mp distinct).1 (equal ▸ mem_cons_self)
    exact absurd (same.1.1.symm.trans same.1.2) differ
  | a :: b :: rest, [c], distinct, _, same => by
    simp only [pairs, List.cons.injEq, Prod.mk.injEq] at same
    have differ : a ≠ b := fun equal => (List.nodup_cons.mp distinct).1 (equal ▸ mem_cons_self)
    exact absurd (same.1.1.trans same.1.2.symm) differ
  | a :: b :: rest, c :: d :: rest', distinct, distinct', same => by
    simp only [pairs, List.cons.injEq, Prod.mk.injEq] at same
    obtain ⟨⟨rfl, rfl⟩, tail⟩ := same
    have tails := pairs_injective (List.nodup_cons.mp (List.nodup_cons.mp distinct).2).2
      (List.nodup_cons.mp (List.nodup_cons.mp distinct').2).2 tail
    rw [tails]

theorem level_nodup (distinct : xs.Nodup) (free : Set.InjOn (fun pair : α × α => combine pair.1 pair.2) {p | p ∈ pairs xs}) :
    (level combine xs).Nodup :=
  (nodup_pairs distinct).map_on (fun _ first _ second same => free first second same)

theorem eq_of_map_eq {β : Type*} {f : α → β} (injective : Set.InjOn f {x | x ∈ xs ∨ x ∈ ys}) (same : xs.map f = ys.map f) :
    xs = ys := by
  induction xs generalizing ys with
  | nil => exact (List.map_eq_nil_iff.mp same.symm).symm
  | cons x xs ih =>
    cases ys with
    | nil => cases same
    | cons y ys =>
      obtain ⟨head, tail⟩ := List.cons.inj same
      have heads := injective (.inl mem_cons_self) (.inr mem_cons_self) head
      have smaller : {z | z ∈ xs ∨ z ∈ ys} ⊆ {z | z ∈ x :: xs ∨ z ∈ y :: ys} :=
        fun z => Or.imp (mem_cons_of_mem x) (mem_cons_of_mem y)
      rw [heads, ih (injective.mono smaller) tail]

theorem level_injective (distinct : xs.Nodup) (distinct' : ys.Nodup)
    (free : Set.InjOn (fun pair : α × α => combine pair.1 pair.2) {p | p ∈ pairs xs ∨ p ∈ pairs ys})
    (same : level combine xs = level combine ys) : xs = ys :=
  pairs_injective distinct distinct' (eq_of_map_eq free same)

theorem combined_mono (rises : ReflTransGen (Rises combine) xs ys) : combined combine ys ⊆ combined combine xs := by
  rintro pair ⟨nodes, above, several, listed⟩
  exact ⟨nodes, rises.trans above, several, listed⟩

theorem nodup_of_rises (rises : ReflTransGen (Rises combine) xs ys) (distinct : xs.Nodup)
    (free : Set.InjOn (fun pair : α × α => combine pair.1 pair.2) (combined combine xs)) : ys.Nodup := by
  induction rises with
  | refl => exact distinct
  | tail below last ih =>
    obtain ⟨several, rfl⟩ := last
    apply level_nodup ih (free.mono ?_)
    intro pair listed
    exact ⟨_, below, several, listed⟩

theorem eq_of_level_eq (free : Set.InjOn (fun pair : α × α => combine pair.1 pair.2)
    (combined combine xs ∪ combined combine ys))
    (distinct : xs.Nodup) (distinct' : ys.Nodup) (several' : 1 < ys.length) {nodes : List α}
    (above : ReflTransGen (Rises combine) xs nodes) (several : 1 < nodes.length)
    (same : level combine nodes = level combine ys) : nodes = ys := by
  apply level_injective (nodup_of_rises above distinct (free.mono Set.subset_union_left)) distinct' (free.mono ?_) same
  rintro pair (listed | listed)
  · exact .inl ⟨nodes, above, several, listed⟩
  · exact .inr ⟨ys, .refl, several', listed⟩

theorem rises_of_root_eq {root : α} (rises : ReflTransGen (Rises combine) xs [root]) :
    ∀ ys, ReflTransGen (Rises combine) ys [root] → xs.Nodup → ys.Nodup →
      Set.InjOn (fun pair : α × α => combine pair.1 pair.2) (combined combine xs ∪ combined combine ys) →
      ReflTransGen (Rises combine) xs ys ∨ ReflTransGen (Rises combine) ys xs := by
  induction rises using head_induction_on with
  | refl => exact fun ys rises' _ _ _ => .inr rises'
  | @head xs upper first rest ih =>
    intro ys rises' distinct distinct' free
    rcases cases_head rises' with rfl | ⟨upper', first', rest'⟩
    · exact .inl (rest.head first)
    have smaller := combined_mono (.single first)
    have smaller' := combined_mono (.single first')
    have levels := ih upper' rest' (nodup_of_rises (.single first) distinct (free.mono Set.subset_union_left))
      (nodup_of_rises (.single first') distinct' (free.mono Set.subset_union_right))
      (free.mono (Set.union_subset_union smaller smaller'))
    obtain ⟨several, rfl⟩ := first
    obtain ⟨several', rfl⟩ := first'
    rcases levels with reach | reach
    · rcases cases_tail reach with same | ⟨nodes, below, last, same⟩
      · exact .inl (eq_of_level_eq free distinct distinct' several' .refl several same.symm ▸ .refl)
      · have above : ReflTransGen (Rises combine) xs nodes := below.head ⟨several, rfl⟩
        exact .inl (eq_of_level_eq free distinct distinct' several' above last same.symm ▸ above)
    · have swapped := Set.union_comm (combined combine xs) (combined combine ys) ▸ free
      rcases cases_tail reach with same | ⟨nodes, below, last, same⟩
      · exact .inr (eq_of_level_eq swapped distinct' distinct several .refl several' same.symm ▸ .refl)
      · have above : ReflTransGen (Rises combine) ys nodes := below.head ⟨several', rfl⟩
        exact .inr (eq_of_level_eq swapped distinct' distinct several above last same.symm ▸ above)

theorem eq_of_rises (nonempty : ys ≠ []) (apart : ∀ y ∈ ys, ∀ pair ∈ combined combine xs, combine pair.1 pair.2 ≠ y)
    (rises : ReflTransGen (Rises combine) xs ys) : xs = ys := by
  rcases cases_tail rises with same | ⟨nodes, above, several, rfl⟩
  · exact same.symm
  · obtain ⟨node, rest, shape⟩ := exists_cons_of_ne_nil nonempty
    have member : node ∈ level combine nodes := shape ▸ mem_cons_self
    obtain ⟨pair, listed, equal⟩ := List.mem_map.mp member
    exact absurd equal (apart node member pair ⟨nodes, above, several, listed⟩)

theorem combined_singleton (leaf : α) : combined combine [leaf] = ∅ := by
  apply Set.eq_empty_of_forall_notMem
  rintro pair ⟨nodes, above, several, -⟩
  rcases cases_head above with rfl | ⟨_, ⟨more, -⟩, -⟩
  · exact absurd several (Nat.lt_irrefl 1)
  · exact absurd more (Nat.lt_irrefl 1)

theorem combined_of_several (several : 1 < xs.length) :
    combined combine xs = {pair | pair ∈ pairs xs} ∪ combined combine (level combine xs) := by
  ext pair
  constructor
  · rintro ⟨nodes, above, more, listed⟩
    rcases cases_head above with rfl | ⟨_, ⟨-, rfl⟩, above⟩
    · exact .inl listed
    · exact .inr ⟨nodes, above, more, listed⟩
  · rintro (listed | ⟨nodes, above, more, listed⟩)
    · exact ⟨xs, .refl, several, listed⟩
    · exact ⟨nodes, above.head ⟨several, rfl⟩, more, listed⟩

theorem leaves_eq_of_root {root : α} (distinct : xs.Nodup) (distinct' : ys.Nodup) (nonempty : xs ≠ []) (nonempty' : ys ≠ [])
    (free : Set.InjOn (fun pair : α × α => combine pair.1 pair.2) (combined combine xs ∪ combined combine ys))
    (apart : ∀ leaf, leaf ∈ xs ∨ leaf ∈ ys → ∀ pair ∈ combined combine xs ∪ combined combine ys, combine pair.1 pair.2 ≠ leaf)
    (rises : ReflTransGen (Rises combine) xs [root]) (rises' : ReflTransGen (Rises combine) ys [root]) : xs = ys := by
  rcases rises_of_root_eq rises ys rises' distinct distinct' free with reach | reach
  · exact eq_of_rises nonempty' (fun leaf member pair listed => apart leaf (.inr member) pair (.inl listed)) reach
  · exact (eq_of_rises nonempty (fun leaf member pair listed => apart leaf (.inl member) pair (.inr listed)) reach).symm

theorem rises_collapse (fuel : Nat) (nodes : List α) : ReflTransGen (Rises combine) nodes (collapse combine fuel nodes) := by
  induction fuel generalizing nodes with
  | zero => exact .refl
  | succ fuel ih =>
    unfold collapse
    by_cases several : 1 < nodes.length
    · rw [if_pos several]
      exact (ih _).head ⟨several, rfl⟩
    · rw [if_neg several]

theorem length_collapse {fuel : Nat} {nodes : List α} (nonempty : nodes ≠ []) (enough : nodes.length ≤ fuel + 1) :
    (collapse combine fuel nodes).length = 1 := by
  induction fuel generalizing nodes with
  | zero =>
    have some_ := List.length_pos_iff.mpr nonempty
    simp only [collapse]
    omega
  | succ fuel ih =>
    have some_ := List.length_pos_iff.mpr nonempty
    unfold collapse
    by_cases several : 1 < nodes.length
    · rw [if_pos several]
      have shorter : (level combine nodes).length = (nodes.length + 1) / 2 := length_level nodes
      apply ih
      · apply List.length_pos_iff.mp
        omega
      · omega
    · rw [if_neg several]
      omega

end AceChain.Lib.Merkle
