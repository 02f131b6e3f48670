import Mathlib.Data.List.Chain

namespace AceChain.Lib

variable {α : Type*}

def walk (link : α → Option α) : Nat → α → List α
  | 0, a => [a]
  | fuel + 1, a =>
    match link a with
    | some b => a :: walk link fuel b
    | none => [a]

theorem head?_walk (link : α → Option α) (fuel : Nat) (a : α) : (walk link fuel a).head? = some a := by
  cases fuel with
  | zero => rfl
  | succ fuel =>
    unfold walk
    split <;> rfl

theorem isChain_walk {link : α → Option α} {P : α → Prop} {R : α → α → Prop}
    (keep : ∀ a b, P a → link a = some b → P b ∧ R a b) (fuel : Nat) {a : α} (start : P a) :
    (walk link fuel a).IsChain R := by
  induction fuel generalizing a with
  | zero => exact .singleton a
  | succ fuel ih =>
    unfold walk
    split <;> rename_i b linked
    · have kept := keep a _ start linked
      apply (ih kept.1).cons
      rw [head?_walk]
      rintro c ⟨⟩
      exact kept.2
    · exact .singleton a

theorem pairwise_walk {link : α → Option α} {P : α → Prop} {measure : α → Nat}
    (keep : ∀ a b, P a → link a = some b → P b ∧ measure b < measure a) (fuel : Nat) {a : α} (start : P a) :
    ((walk link fuel a).map measure).Pairwise (· > ·) := by
  rw [List.pairwise_map]
  have falling : (walk link fuel a).IsChain (fun a b => measure a > measure b) := isChain_walk keep fuel start
  exact List.isChain_iff_pairwise.mp falling

end AceChain.Lib
