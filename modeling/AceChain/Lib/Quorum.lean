import Mathlib.Algebra.BigOperators.Group.Finset.Basic
import Mathlib.Algebra.Order.BigOperators.Group.Finset

namespace AceChain.Lib

variable {α : Type*}

/-- Weighted members, of which only the `trusted` ones follow the rules. -/
structure Electorate (α : Type*) where
  members : Finset α
  weight : α → Nat
  trusted : α → Prop
  [decTrusted : DecidablePred trusted]

attribute [instance] Electorate.decTrusted

namespace Electorate

variable (e : Electorate α)

def weightOf (s : Finset α) : Nat := ∑ v ∈ s, e.weight v

def total : Nat := e.weightOf e.members

def faulty : Finset α := e.members.filter (fun v => ¬ e.trusted v)

def IsQuorum (s : Finset α) : Prop := s ⊆ e.members ∧ 2 * e.total ≤ 3 * e.weightOf s

def Bounded : Prop := 3 * e.weightOf e.faulty < e.total

theorem weightOf_le_total {s : Finset α} (subset : s ⊆ e.members) : e.weightOf s ≤ e.total :=
  Finset.sum_le_sum_of_subset subset

theorem weightOf_inter_add [DecidableEq α] {s t : Finset α} (hs : s ⊆ e.members) (ht : t ⊆ e.members) :
    e.weightOf s + e.weightOf t ≤ e.total + e.weightOf (s ∩ t) := by
  have union : e.weightOf (s ∪ t) + e.weightOf (s ∩ t) = e.weightOf s + e.weightOf t :=
    Finset.sum_union_inter
  have bound := e.weightOf_le_total (Finset.union_subset hs ht)
  omega

theorem exists_trusted {s : Finset α} (subset : s ⊆ e.members) (heavy : e.weightOf e.faulty < e.weightOf s) :
    ∃ v ∈ s, e.trusted v := by
  by_contra none
  have inside : s ⊆ e.faulty := by
    intro v member
    refine Finset.mem_filter.mpr ⟨subset member, ?_⟩
    intro trusted
    exact none ⟨v, member, trusted⟩
  have light : e.weightOf s ≤ e.weightOf e.faulty := Finset.sum_le_sum_of_subset inside
  omega

theorem IsQuorum.exists_trusted_inter [DecidableEq α] {e : Electorate α} {s t : Finset α} (bounded : e.Bounded)
    (hs : e.IsQuorum s) (ht : e.IsQuorum t) : ∃ v, v ∈ s ∧ v ∈ t ∧ e.trusted v := by
  have overlap := e.weightOf_inter_add hs.1 ht.1
  have heavy : e.weightOf e.faulty < e.weightOf (s ∩ t) := by
    have := hs.2
    have := ht.2
    unfold Bounded at bounded
    omega
  obtain ⟨v, member, trusted⟩ := e.exists_trusted (Finset.inter_subset_left.trans hs.1) heavy
  exact ⟨v, (Finset.mem_inter.mp member).1, (Finset.mem_inter.mp member).2, trusted⟩

end Electorate

end AceChain.Lib
