import Mathlib.Init

namespace AceChain.Lib

variable {α β ε : Type*}

theorem foldlM_ok_invariant {P : β → Prop} {step : β → α → Except ε β} {items : List α}
    (keep : ∀ b, ∀ a ∈ items, ∀ b', P b → step b a = .ok b' → P b') {b result : β} (start : P b)
    (folded : items.foldlM step b = .ok result) : P result := by
  induction items generalizing b with
  | nil =>
    cases folded
    exact start
  | cons a items ih =>
    rw [List.foldlM_cons] at folded
    cases first : step b a with
    | error error =>
      rw [first] at folded
      cases folded
    | ok b' =>
      rw [first] at folded
      apply ih (fun b a member => keep b a (List.mem_cons_of_mem _ member)) _ folded
      exact keep b a List.mem_cons_self b' start first

end AceChain.Lib
