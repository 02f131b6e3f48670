import Mathlib.Algebra.BigOperators.Group.Finset.Basic
import Mathlib.Algebra.BigOperators.Ring.Finset
import Mathlib.Algebra.Order.BigOperators.Group.Finset
import Mathlib.Data.Nat.ModEq

namespace AceChain.Lib

open Finset

def hits (f : ℕ → ℕ) (m i : ℕ) : ℕ := ((range m).filter (fun k => f k = i)).card

section Hits

variable {f g : ℕ → ℕ} {m n i r : ℕ}

@[simp] theorem hits_zero (f : ℕ → ℕ) (i : ℕ) : hits f 0 i = 0 := rfl

end Hits

section Floors

variable {a n t : ℕ} {w : ℕ → ℕ}

end Floors

end AceChain.Lib
