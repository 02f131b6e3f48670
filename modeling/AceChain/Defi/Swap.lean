import AceChain.Basic
import Mathlib.Order.Bounds.Basic
import Mathlib.Tactic.Linarith

namespace AceChain.Defi

/-- Arithmetic of `u128` as a debug build checks it; a build without the checks agrees wherever a result is there. -/
def u128Add (a b : Nat) : Option Nat := if a + b < 2 ^ 128 then some (a + b) else none

def u128Div (a b : Nat) : Option Nat := if b = 0 then none else some (a / b)

def isqrtLoop (n x y : Nat) : Option Nat :=
  if y < x then do
    let quotient ← u128Div n y
    let sum ← u128Add y quotient
    isqrtLoop n y (sum / 2)
  else some x
termination_by x

def isqrt (n : Nat) : Option Nat :=
  if n = 0 then some 0
  else do
    let sum ← u128Add n 1
    isqrtLoop n n (sum / 2)

section Newton

variable {n x : Nat}

theorem lt_newton_succ_sq (positive : 0 < x) : n < ((x + n / x) / 2 + 1) * ((x + n / x) / 2 + 1) := by
  have below : n < x * (n / x + 1) := Nat.lt_mul_div_succ n positive
  have half : x + n / x + 1 ≤ 2 * ((x + n / x) / 2 + 1) := by omega
  generalize (x + n / x) / 2 + 1 = next at half ⊢
  generalize n / x = quotient at below half
  -- the mean of two numbers is at least the root of their product
  nlinarith [Nat.mul_le_mul half half, sq_nonneg ((x : Int) - (quotient + 1))]

theorem newton_pos (positive : 0 < x) (small : x ≤ n) : 0 < (x + n / x) / 2 := by
  have quotient : 0 < n / x := Nat.div_pos small positive
  omega

theorem add_div_le (positive : 0 < x) (small : x ≤ n) : x + n / x ≤ n + 1 := by
  have quotient : 0 < n / x := Nat.div_pos small positive
  have product : x * (n / x) ≤ n := Nat.mul_div_le n x
  nlinarith

theorem sq_le_of_newton_le (stops : x ≤ (x + n / x) / 2) : x * x ≤ n := by
  have least : x ≤ n / x := by omega
  exact (Nat.mul_le_mul_left x least).trans (Nat.mul_div_le n x)

/-- Every guess stays between 1 and `n`, so no sum passes `n + 1`, and from above the root until the loop ends. -/
theorem isqrtLoop_greatest (fits : n + 1 < 2 ^ 128) (positive : 0 < x) (small : x ≤ n) (above : n < (x + 1) * (x + 1)) :
    ∃ root, isqrtLoop n x ((x + n / x) / 2) = some root ∧ IsGreatest {r | r * r ≤ n} root := by
  induction x using Nat.strongRecOn with
  | _ x ih =>
    rw [isqrtLoop]
    split
    · rename_i falls
      have positive' := newton_pos positive small
      have above' := lt_newton_succ_sq (n := n) positive
      generalize (x + n / x) / 2 = y at falls positive' above' ⊢
      have small' : y ≤ n := falls.le.trans small
      have sum : u128Add y (n / y) = some (y + n / y) := by
        apply if_pos
        have bound := add_div_le positive' small'
        omega
      have quotient : u128Div n y = some (n / y) := if_neg positive'.ne'
      rw [quotient, Option.bind_eq_bind, Option.bind_some, sum, Option.bind_some]
      exact ih y falls positive' small' above'
    · rename_i stops
      refine ⟨x, rfl, sq_le_of_newton_le (not_lt.mp stops), ?_⟩
      intro r below
      by_contra larger
      have next : (x + 1) * (x + 1) ≤ r * r := Nat.mul_self_le_mul_self (not_le.mp larger)
      exact absurd (above.trans_le next) (not_lt.mpr below)

end Newton

/-- The square root of the first deposit's product is the greatest integer whose square is at most the product. -/
theorem isqrt_of_product (a b : UInt64) :
    ∃ root, isqrt (a.toNat * b.toNat) = some root ∧ IsGreatest {r | r * r ≤ a.toNat * b.toNat} root := by
  have product : a.toNat * b.toNat ≤ (2 ^ 64 - 1) * (2 ^ 64 - 1) :=
    Nat.mul_le_mul (Nat.le_sub_one_of_lt a.toNat_lt) (Nat.le_sub_one_of_lt b.toNat_lt)
  generalize a.toNat * b.toNat = n at product ⊢
  unfold isqrt
  split
  · rename_i zero
    subst zero
    refine ⟨0, rfl, le_refl 0, fun r below => ?_⟩
    nlinarith [show r * r ≤ 0 from below]
  · rename_i nonzero
    have positive : 0 < n := Nat.pos_of_ne_zero nonzero
    have fits : n + 1 < 2 ^ 128 := by omega
    have first : u128Add n 1 = some (n + n / n) := by
      rw [Nat.div_self positive]
      exact if_pos fits
    rw [first, Option.bind_eq_bind, Option.bind_some]
    exact isqrtLoop_greatest fits positive le_rfl (by nlinarith)

end AceChain.Defi
