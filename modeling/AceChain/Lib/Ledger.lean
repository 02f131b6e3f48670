import AceChain.Lib.Runs
import Mathlib.Algebra.Order.Ring.Nat
import Mathlib.Algebra.BigOperators.Group.List.Basic
import Mathlib.Algebra.BigOperators.Finprod

namespace AceChain.Lib

open Std.TreeMap Std

section Total

variable {κ α : Type*} [Ord κ] (value : α → Nat)

def total (m : TreeMap κ α) : Nat := (m.toList.map (fun entry => value entry.2)).sum

def valueAt (m : TreeMap κ α) (k : κ) : Nat := (m[k]?.map value).getD 0

variable {value} [TransOrd κ] [LawfulEqOrd κ] {m m' : TreeMap κ α} {k : κ}

theorem total_congr (same : ∀ k : κ, m'[k]? = m[k]?) : total value m' = total value m := by
  have equiv : m'.Equiv m := Std.TreeMap.Equiv.of_forall_constGet?_eq same
  unfold total
  rw [equiv.toList_eq]

variable [DecidableEq κ]

def totalBut (value : α → Nat) (m : TreeMap κ α) (k : κ) : Nat :=
  ((m.toList.filter (fun entry => ¬k = entry.1)).map (fun entry => value entry.2)).sum

theorem total_insert_eq (a : α) : total value (m.insert k a) = totalBut value m k + value a := by
  have perm := toList_insert_perm (t := m) (k := k) (v := a)
  unfold total totalBut
  rw [(perm.map (fun entry => value entry.2)).sum_eq, List.map_cons, List.sum_cons, Nat.add_comm]
  simp only [beq_iff_eq]

theorem total_eq : total value m = totalBut value m k + valueAt value m k := by
  unfold valueAt
  cases found : m[k]? with
  | none =>
    have others : m.toList.filter (fun entry => ¬k = entry.1) = m.toList := by
      apply List.filter_eq_self.mpr
      intro entry member
      have held := mem_toList_iff_getElem?_eq_some.mp member
      apply decide_eq_true
      intro same
      rw [← same, found] at held
      cases held
    unfold total totalBut
    rw [others]
    rfl
  | some a =>
    change total value m = totalBut value m k + value a
    rw [← total_insert_eq a]
    apply total_congr
    intro other
    rw [getElem?_insert]
    split <;> rename_i same
    · rw [← Std.LawfulEqCmp.eq_of_compare same, found]
    · rfl

theorem total_insert (a : α) : total value (m.insert k a) + valueAt value m k = total value m + value a := by
  rw [total_insert_eq, total_eq (k := k)]
  omega

theorem total_modify (f : α → α) :
    total value (m.modify k f) + valueAt value m k = total value m + valueAt (fun a => value (f a)) m k := by
  unfold valueAt
  cases found : m[k]? with
  | none =>
    have same : total value (m.modify k f) = total value m := by
      apply total_congr
      intro other
      rw [getElem?_modify]
      split <;> rename_i same
      · rw [← Std.LawfulEqCmp.eq_of_compare same, found]
        rfl
      · rfl
    rw [same]
    rfl
  | some a =>
    have same : total value (m.modify k f) = total value (m.insert k (f a)) := by
      apply total_congr
      intro other
      rw [getElem?_modify, getElem?_insert, found]
      rfl
    have inserted : total value (m.insert k (f a)) + valueAt value m k = total value m + value (f a) :=
      total_insert (f a)
    unfold valueAt at inserted
    rw [found] at inserted
    rw [same]
    exact inserted

end Total

section Runs

variable {σ ε : Type*} (step : σ → ε → σ) (value : σ → Nat) (paid : σ → ε → Nat)

def outflow : σ → List ε → Nat
  | _, [] => 0
  | s, e :: es => paid s e + outflow (step s e) es

theorem outflow_balanced_iff {s : σ} {es : List ε} :
    (∀ n, value (run step s (es.take n)) + outflow step paid s (es.take n) = value s) ↔
      Meets step (fun s e => value (step s e) + paid s e = value s) s es := by
  induction es generalizing s with
  | nil => simp [outflow, Meets]
  | cons e es ih =>
    constructor
    · intro balanced
      have first := balanced 1
      simp only [List.take_succ_cons, List.take_zero, run, outflow, Nat.add_zero] at first
      refine ⟨first, ih.mp (fun n => ?_)⟩
      have later := balanced (n + 1)
      simp only [List.take_succ_cons, run, outflow] at later
      omega
    · intro meets n
      cases n with
      | zero => simp [outflow]
      | succ n =>
        have later := ih.mpr meets.2 n
        have first := meets.1
        simp only [List.take_succ_cons, run, outflow]
        omega

theorem outflow_le {s : σ} {es : List ε} (meets : Meets step (fun s e => value (step s e) + paid s e ≤ value s) s es) :
    value (run step s es) + outflow step paid s es ≤ value s := by
  induction es generalizing s with
  | nil => simp [outflow]
  | cons e es ih =>
    have first := meets.1
    have later := ih meets.2
    simp only [run, outflow]
    omega

end Runs

section Update

variable {ι : Type*} [DecidableEq ι] (f : ι → Nat) (i : ι) (v : Nat)

theorem sum_update {s : Finset ι} (member : i ∈ s) : (∑ x ∈ s, Function.update f i v x) + f i = (∑ x ∈ s, f x) + v := by
  rw [Finset.sum_update_of_mem member, ← Finset.sum_sdiff (Finset.singleton_subset_iff.mpr member), Finset.sum_singleton]
  omega

theorem finsum_update [Finite ι] : (∑ᶠ x, Function.update f i v x) + f i = (∑ᶠ x, f x) + v := by
  have := Fintype.ofFinite ι
  rw [finsum_eq_sum_of_fintype, finsum_eq_sum_of_fintype]
  exact sum_update f i v (Finset.mem_univ i)

end Update

end AceChain.Lib
