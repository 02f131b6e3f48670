import Mathlib.Init

namespace AceChain.Lib

variable {σ ε : Type*}

def run (step : σ → ε → σ) : σ → List ε → σ
  | s, [] => s
  | s, e :: es => run step (step s e) es

def Meets (step : σ → ε → σ) (ok : σ → ε → Prop) : σ → List ε → Prop
  | _, [] => True
  | s, e :: es => ok s e ∧ Meets step ok (step s e) es

instance decidableMeets (step : σ → ε → σ) (ok : σ → ε → Prop) [∀ s e, Decidable (ok s e)] :
    (s : σ) → (es : List ε) → Decidable (Meets step ok s es)
  | _, [] => .isTrue trivial
  | s, e :: es => @instDecidableAnd _ _ inferInstance (decidableMeets step ok (step s e) es)

def occurrences (step : σ → ε → σ) (p : σ → ε → Bool) : σ → List ε → Nat
  | _, [] => 0
  | s, e :: es => (if p s e then 1 else 0) + occurrences step p (step s e) es

def observations {ο : Type*} (step : σ → ε → σ) (see : σ → ε → List ο) : σ → List ε → List ο
  | _, [] => []
  | s, e :: es => see s e ++ observations step see (step s e) es

variable {step : σ → ε → σ} {ok : σ → ε → Prop} {s : σ}

@[simp] theorem run_nil : run step s [] = s := rfl

@[simp] theorem run_cons (e : ε) (es : List ε) : run step s (e :: es) = run step (step s e) es := rfl

theorem run_append (es later : List ε) : run step s (es ++ later) = run step (run step s es) later := by
  induction es generalizing s with
  | nil => rfl
  | cons e es ih => exact ih

variable {es : List ε}

theorem meets_append {later : List ε} :
    Meets step ok s (es ++ later) ↔ Meets step ok s es ∧ Meets step ok (run step s es) later := by
  induction es generalizing s with
  | nil => simp [Meets]
  | cons e es ih => simp only [List.cons_append, Meets, ih, run_cons, and_assoc]

theorem meets_true (es : List ε) : Meets step (fun _ _ => True) s es := by
  induction es generalizing s with
  | nil => trivial
  | cons e es ih => exact ⟨trivial, ih⟩

theorem meets_iff_getElem? : Meets step ok s es ↔ ∀ n e, es[n]? = some e → ok (run step s (es.take n)) e := by
  induction es generalizing s with
  | nil => simp [Meets]
  | cons e es ih =>
    rw [Meets, ih]
    constructor
    · rintro ⟨first, rest⟩ n e' at_
      cases n with
      | zero =>
        cases at_
        exact first
      | succ n => exact rest n e' at_
    · intro all
      exact ⟨all 0 e rfl, fun n e' at_ => all (n + 1) e' at_⟩

variable {ok' : σ → ε → Prop}

theorem Meets.imp (weaker : ∀ s e, ok s e → ok' s e) (meets : Meets step ok s es) :
    Meets step ok' s es := by
  induction es generalizing s with
  | nil => trivial
  | cons e es ih => exact ⟨weaker s e meets.1, ih meets.2⟩

theorem meets_congr (same : ∀ s e, ok s e ↔ ok' s e) :
    Meets step ok s es ↔ Meets step ok' s es :=
  ⟨Meets.imp (fun s e => (same s e).mp), Meets.imp (fun s e => (same s e).mpr)⟩

theorem run_invariant {Inv : σ → Prop} (keep : ∀ s, ∀ e ∈ es, Inv s → ok s e → Inv (step s e))
    (start : Inv s) (meets : Meets step ok s es) : Inv (run step s es) := by
  induction es generalizing s with
  | nil => exact start
  | cons e es ih =>
    have first := keep s e List.mem_cons_self start meets.1
    exact ih (fun s e member => keep s e (List.mem_cons_of_mem _ member)) first meets.2

theorem invariant_iff_meets {Inv : σ → Prop} (keep : ∀ s e, Inv s → (Inv (step s e) ↔ ok s e)) (start : Inv s) :
    (∀ n, Inv (run step s (es.take n))) ↔ Meets step ok s es := by
  induction es generalizing s with
  | nil => simp [Meets, start]
  | cons e es ih =>
    constructor
    · intro all
      have next : Inv (step s e) := all 1
      exact ⟨(keep s e start).mp next, (ih next).mp (fun n => all (n + 1))⟩
    · intro meets n
      have next := (keep s e start).mpr meets.1
      cases n with
      | zero => exact start
      | succ n => exact (ih next).mpr meets.2 n

theorem Meets.imp_of_invariant {I : σ → Prop}
    (keep : ∀ s e, I s → ok s e → I (step s e)) (weaker : ∀ s e, I s → ok s e → ok' s e) (start : I s)
    (meets : Meets step ok s es) : Meets step ok' s es := by
  induction es generalizing s with
  | nil => trivial
  | cons e es ih => exact ⟨weaker s e start meets.1, ih (keep s e start meets.1) meets.2⟩

theorem meets_congr_of_invariant {I : σ → Prop}
    (keep : ∀ s e, I s → ok s e → I (step s e)) (same : ∀ s e, I s → (ok s e ↔ ok' s e)) (start : I s) :
    Meets step ok s es ↔ Meets step ok' s es :=
  ⟨Meets.imp_of_invariant keep (fun s e inv => (same s e inv).mp) start,
    Meets.imp_of_invariant (fun s e inv met => keep s e inv ((same s e inv).mpr met)) (fun s e inv => (same s e inv).mpr)
      start⟩

theorem occurrences_le_one {I D : σ → Prop} {p : σ → ε → Bool}
    (keep : ∀ s e, I s → ok s e → I (step s e)) (final : ∀ s e, I s → ok s e → p s e = true → D (step s e))
    (closed : ∀ s e, I s → ok s e → D s → D (step s e)) (never : ∀ s e, I s → ok s e → D s → p s e = false)
    (start : I s) (meets : Meets step ok s es) : occurrences step p s es ≤ 1 := by
  have none_ : ∀ (es : List ε) (s : σ), I s → D s → Meets step ok s es → occurrences step p s es = 0 := by
    intro es
    induction es with
    | nil => intros; rfl
    | cons e es ih =>
      intro s inv done meets
      have rest := ih (step s e) (keep s e inv meets.1) (closed s e inv meets.1 done) meets.2
      rw [occurrences, never s e inv meets.1 done, rest]
      rfl
  induction es generalizing s with
  | nil => exact Nat.zero_le 1
  | cons e es ih =>
    have inv := keep s e start meets.1
    rw [occurrences]
    cases happens : p s e with
    | false =>
      have rest := ih inv meets.2
      simp only [Bool.false_eq_true, if_false]
      omega
    | true =>
      have rest := none_ es (step s e) inv (final s e start meets.1 happens) meets.2
      simp only [if_true]
      omega

section Observations

variable {ο : Type*} {see : σ → ε → List ο}

theorem count_foldl {count : σ → Nat} {p : ο → Bool} {es : List ε}
    (counts : ∀ s e, count (step s e) = count s + (see s e).countP p) :
    count (es.foldl step s) = count s + (observations step see s es).countP p := by
  induction es generalizing s with
  | nil => rfl
  | cons e es ih =>
    rw [List.foldl_cons, ih, counts, observations, List.countP_append]
    omega

theorem observations_increase {see : σ → ε → Option Nat} (bound : σ → Nat)
    (step_ : ∀ s e, ok s e → bound s ≤ bound (step s e) ∧ ∀ n ∈ see s e, bound s ≤ n ∧ n < bound (step s e))
    (meets : Meets step ok s es) :
    (observations step (fun s e => (see s e).toList) s es).Pairwise (· < ·) ∧
      ∀ n ∈ observations step (fun s e => (see s e).toList) s es, bound s ≤ n := by
  induction es generalizing s with
  | nil => simp [observations]
  | cons e es ih =>
    obtain ⟨sorted, above⟩ := ih meets.2
    obtain ⟨more, first⟩ := step_ s e meets.1
    unfold observations
    cases seen : see s e with
    | none => exact ⟨sorted, fun n later => Nat.le_trans more (above n later)⟩
    | some m =>
      have between := first m seen
      refine ⟨.cons (fun n later => Nat.lt_of_lt_of_le between.2 (above n later)) sorted, fun n member => ?_⟩
      rcases List.mem_cons.mp member with rfl | later
      · exact between.1
      · exact Nat.le_trans more (above n later)

theorem forall_observations (Inv : σ → Prop) {P : ο → Prop} {es : List ε} (keep : ∀ s, ∀ e ∈ es, Inv s → Inv (step s e))
    (each : ∀ s, ∀ e ∈ es, Inv s → ∀ o ∈ see s e, P o) (start : Inv s) : ∀ o ∈ observations step see s es, P o := by
  induction es generalizing s with
  | nil => intro o member; cases member
  | cons e es ih =>
    intro o member
    rcases List.mem_append.mp member with now | later
    · exact each s e List.mem_cons_self start o now
    · exact ih (fun s e member => keep s e (List.mem_cons_of_mem _ member))
        (fun s e member => each s e (List.mem_cons_of_mem _ member)) (keep s e List.mem_cons_self start) o later

end Observations

end AceChain.Lib
