import Mathlib.Data.List.Nodup
import Mathlib.Data.List.Induction

namespace AceChain.Lib.LinkedQueue

open Function List

abbrev Links := Nat → Nat × Nat

def Stretch (links : Links) : Nat → List Nat → Nat → Prop
  | _, [], _ => True
  | prev, x :: xs, next => links x = (prev, xs.headD next) ∧ Stretch links x xs next

def endsOf (xs : List Nat) : Nat × Nat := (xs.headD 0, xs.getLastD 0)

/-- The words hold the list: its ends, its links, no element twice and none of them zero. -/
structure Holds (links : Links) (level : Nat × Nat) (xs : List Nat) : Prop where
  ends : level = endsOf xs
  linked : Stretch links 0 xs 0
  nodup : xs.Nodup
  nonzero : 0 ∉ xs

variable {links links' : Links} {prev next : Nat} {xs ys : List Nat}

theorem Stretch.congr (stretch : Stretch links prev xs next) (same : ∀ x ∈ xs, links' x = links x) :
    Stretch links' prev xs next := by
  induction xs generalizing prev with
  | nil => trivial
  | cons x xs ih =>
    exact ⟨(same x mem_cons_self).trans stretch.1, ih stretch.2 (fun y member => same y (mem_cons_of_mem _ member))⟩

theorem stretch_append : Stretch links prev (xs ++ ys) next ↔
    Stretch links prev xs (ys.headD next) ∧ Stretch links (xs.getLastD prev) ys next := by
  induction xs generalizing prev with
  | nil => simp [Stretch]
  | cons x xs ih =>
    rw [cons_append, Stretch, Stretch, ih, and_assoc]
    have front : (xs ++ ys).headD next = xs.headD (ys.headD next) := by cases xs <;> rfl
    have back : (x :: xs).getLastD prev = xs.getLastD x := by cases xs <;> rfl
    rw [front, back]

variable {x : Nat}

theorem Stretch.retarget (stretch : Stretch links prev (xs ++ [x]) next) (absent : x ∉ xs) (next' : Nat) :
    Stretch (update links x ((links x).1, next')) prev (xs ++ [x]) next' := by
  obtain ⟨front, here, -⟩ := stretch_append.mp stretch
  refine stretch_append.mpr ⟨front.congr ?_, ?_, trivial⟩
  · intro y member
    apply update_of_ne
    rintro rfl
    exact absent member
  · rw [update_self, here]
    rfl

theorem Stretch.rebase (stretch : Stretch links prev (x :: xs) next) (absent : x ∉ xs) (prev' : Nat) :
    Stretch (update links x (prev', (links x).2)) prev' (x :: xs) next := by
  obtain ⟨here, rest⟩ := stretch
  refine ⟨?_, rest.congr ?_⟩
  · rw [update_self, here]
  · intro y member
    apply update_of_ne
    rintro rfl
    exact absent member

variable {level : Nat × Nat}

theorem Holds.congr (holds : Holds links level xs) (same : ∀ x ∈ xs, links' x = links x) :
    Holds links' level xs := ⟨holds.ends, holds.linked.congr same, holds.nodup, holds.nonzero⟩

theorem holds_nil : Holds links (0, 0) [] := ⟨rfl, trivial, nodup_nil, not_mem_nil⟩

theorem ends_eq_zero (holds : Holds links level xs) : (level.1 = 0 ↔ xs = []) ∧ (level.2 = 0 ↔ xs = []) := by
  rw [holds.ends]
  have nonzero := holds.nonzero
  rcases eq_nil_or_concat xs with rfl | ⟨front, last, rfl⟩
  · simp [endsOf]
  rw [concat_eq_append] at nonzero ⊢
  have lastNonzero : last ≠ 0 := fun zero => nonzero (by simp [zero])
  constructor
  · cases front with
    | nil => simpa [endsOf] using lastNonzero
    | cons y ys =>
      have headNonzero : y ≠ 0 := fun zero => nonzero (by simp [zero])
      simpa [endsOf] using headNonzero
  · simp only [endsOf, getLastD_concat, append_eq_nil_iff, cons_ne_self, and_false, iff_false]
    exact lastNonzero

def push (links : Links) (level : Nat × Nat) (id : Nat) : Links :=
  if level.2 = 0 then update links id (0, 0)
  else update (update links level.2 ((links level.2).1, id)) id (level.2, 0)

def pushEnds (level : Nat × Nat) (id : Nat) : Nat × Nat := if level.2 = 0 then (id, id) else (level.1, id)

variable {id : Nat}

theorem Holds.push (holds : Holds links level xs) (nonzero : id ≠ 0) (fresh : id ∉ xs) :
    Holds (push links level id) (pushEnds level id) (xs ++ [id]) := by
  have nodup : (xs ++ [id]).Nodup := by
    rw [nodup_append]
    refine ⟨holds.nodup, nodup_singleton id, ?_⟩
    intro x member y single
    rw [List.mem_singleton.mp single]
    rintro rfl
    exact fresh member
  have noZero : 0 ∉ xs ++ [id] := by
    rw [mem_append, mem_singleton]
    rintro (inside | zero)
    · exact holds.nonzero inside
    · exact nonzero zero.symm
  unfold LinkedQueue.push pushEnds
  by_cases empty : level.2 = 0
  · rw [if_pos empty, if_pos empty]
    have none_ := (ends_eq_zero holds).2.mp empty
    subst none_
    refine ⟨rfl, ⟨?_, trivial⟩, nodup, noZero⟩
    exact update_self _ _ _
  · rw [if_neg empty, if_neg empty]
    rcases eq_nil_or_concat xs with rfl | ⟨front, last, rfl⟩
    · exact absurd ((ends_eq_zero holds).2.mpr rfl) empty
    rw [concat_eq_append] at holds fresh nodup noZero ⊢
    have tail : level.2 = last := by rw [holds.ends, endsOf, getLastD_concat]
    have head : level.1 = (front ++ [last]).headD 0 := by rw [holds.ends, endsOf]
    have notFront : last ∉ front := by
      have split := holds.nodup
      rw [nodup_append] at split
      exact fun member => split.2.2 last member last (mem_singleton_self last) rfl
    refine ⟨?_, stretch_append.mpr ⟨?_, ?_, trivial⟩, nodup, noZero⟩
    · rw [endsOf, getLastD_concat, head]
      cases front <;> rfl
    · rw [tail]
      refine (holds.linked.retarget notFront id).congr ?_
      intro x member
      apply update_of_ne
      rintro rfl
      exact fresh member
    · rw [update_self, getLastD_concat, tail]
      rfl

theorem push_other (notSelf : x ≠ id) (notLast : x ≠ level.2) :
    push links level id x = links x := by
  unfold push
  by_cases empty : level.2 = 0
  · rw [if_pos empty, update_of_ne notSelf]
  · rw [if_neg empty, update_of_ne notSelf, update_of_ne notLast]

theorem getLastD_mem_or (xs : List Nat) (d : Nat) : xs.getLastD d ∈ xs ∨ xs.getLastD d = d := by
  rcases eq_nil_or_concat xs with rfl | ⟨front, last, rfl⟩
  · exact Or.inr rfl
  · rw [concat_eq_append, getLastD_concat]
    exact Or.inl (by simp)

theorem Holds.last_mem_or (holds : Holds links level xs) : level.2 ∈ xs ∨ level.2 = 0 := by
  rw [holds.ends]
  exact getLastD_mem_or xs 0

def unlink (links : Links) (id : Nat) : Links :=
  let (prev, next) := links id
  let links := if prev ≠ 0 then update links prev ((links prev).1, next) else links
  let links := if next ≠ 0 then update links next (prev, (links next).2) else links
  update links id (0, 0)

def unlinkEnds (links : Links) (level : Nat × Nat) (id : Nat) : Nat × Nat :=
  let (prev, next) := links id
  (if level.1 = id then next else level.1, if level.2 = id then prev else level.2)

theorem headD_append (xs ys : List Nat) (d : Nat) : (xs ++ ys).headD d = xs.headD (ys.headD d) := by cases xs <;> rfl

theorem getLastD_append (xs ys : List Nat) (d : Nat) : (xs ++ ys).getLastD d = ys.getLastD (xs.getLastD d) := by
  rcases eq_nil_or_concat ys with rfl | ⟨front, last, rfl⟩
  · rw [append_nil]
    rfl
  · rw [concat_eq_append, ← append_assoc, getLastD_concat, getLastD_concat]

theorem headD_mem_or (xs : List Nat) (d : Nat) : xs.headD d ∈ xs ∨ xs.headD d = d ∧ xs = [] := by
  cases xs with
  | nil => exact Or.inr ⟨rfl, rfl⟩
  | cons x xs => exact Or.inl mem_cons_self

theorem unlink_other (notSelf : x ≠ id) (notPrev : x ≠ (links id).1) (notNext : x ≠ (links id).2) :
    unlink links id x = links x := by
  unfold unlink
  dsimp only
  rw [update_of_ne notSelf]
  by_cases hasNext : (links id).2 ≠ 0
  · rw [if_pos hasNext, update_of_ne notNext]
    by_cases hasPrev : (links id).1 ≠ 0
    · rw [if_pos hasPrev, update_of_ne notPrev]
    · rw [if_neg hasPrev]
  · rw [if_neg hasNext]
    by_cases hasPrev : (links id).1 ≠ 0
    · rw [if_pos hasPrev, update_of_ne notPrev]
    · rw [if_neg hasPrev]

theorem stretch_middle (linked : Stretch links 0 (xs ++ id :: ys) 0) :
    links id = (xs.getLastD 0, ys.headD 0) := (stretch_append.mp linked).2.1

theorem Holds.neighbours_mem_or (holds : Holds links level (xs ++ id :: ys)) :
    ((links id).1 ∈ xs ++ id :: ys ∨ (links id).1 = 0) ∧ ((links id).2 ∈ xs ++ id :: ys ∨ (links id).2 = 0) := by
  rw [stretch_middle holds.linked]
  constructor
  · rcases getLastD_mem_or xs 0 with member | zero
    · exact Or.inl (mem_append_left _ member)
    · exact Or.inr zero
  · rcases headD_mem_or ys 0 with member | ⟨zero, -⟩
    · exact Or.inl (mem_append_right _ (mem_cons_of_mem _ member))
    · exact Or.inr zero

theorem Holds.unlink (holds : Holds links level (xs ++ id :: ys)) :
    Holds (unlink links id) (unlinkEnds links level id) (xs ++ ys) := by
  obtain ⟨front, here, back⟩ := stretch_append.mp holds.linked
  have nodup := holds.nodup
  have nonzero := holds.nonzero
  rw [nodup_append, nodup_cons] at nodup
  obtain ⟨frontNodup, ⟨notBack, backNodup⟩, apart⟩ := nodup
  have notFront : id ∉ xs := fun member => apart id member id mem_cons_self rfl
  have disjoint : ∀ x ∈ xs, x ∉ ys := fun x inFront inBack => apart x inFront x (mem_cons_of_mem _ inBack) rfl
  simp only [mem_append, mem_cons, not_or] at nonzero
  obtain ⟨frontNonzero, -, backNonzero⟩ := nonzero
  have level1 := congrArg Prod.fst holds.ends
  have level2 := congrArg Prod.snd holds.ends
  simp only [endsOf, headD_append, getLastD_append, headD_cons] at level1 level2
  refine ⟨?_, ?_, ?_, ?_⟩
  · -- an end moves on exactly when the element stood there
    unfold unlinkEnds endsOf
    rw [here, headD_append, getLastD_append]
    refine Prod.ext ?_ ?_
    · dsimp only
      rw [level1]
      cases xs with
      | nil => rw [headD_nil, if_pos rfl, headD_nil]
      | cons x xs =>
        have differ : x ≠ id := fun same => notFront (same ▸ mem_cons_self)
        rw [headD_cons, if_neg differ, headD_cons]
    · dsimp only
      rw [level2]
      rcases eq_nil_or_concat ys with rfl | ⟨mid, last, rfl⟩
      · have single : [id].getLastD (xs.getLastD 0) = id := rfl
        rw [single, if_pos rfl]
        rfl
      · rw [concat_eq_append] at notBack ⊢
        have differ : last ≠ id := fun same => notBack (by simp [same])
        rw [← cons_append, getLastD_concat, if_neg differ, getLastD_concat]
  · -- the stretch before the element ends at its successor, the one behind it starts at its predecessor
    have outside : ∀ x ∈ xs ++ ys, x ≠ id := by
      rintro x member rfl
      rcases List.mem_append.mp member with inFront | inBack
      · exact notFront inFront
      · exact notBack inBack
    unfold LinkedQueue.unlink
    rw [here]
    refine Stretch.congr ?_ (fun x member => update_of_ne (outside x member) _ _)
    refine stretch_append.mpr ⟨?_, ?_⟩
    · rcases eq_nil_or_concat xs with rfl | ⟨mid, last, rfl⟩
      · trivial
      rw [concat_eq_append] at *
      have lastMember : last ∈ mid ++ [last] := by simp
      have lastNonzero : last ≠ 0 := fun zero => frontNonzero (zero ▸ lastMember)
      have notMid : last ∉ mid := by
        rw [nodup_append] at frontNodup
        exact fun member => frontNodup.2.2 last member last (mem_singleton_self last) rfl
      rw [getLastD_concat, if_pos lastNonzero]
      refine (front.retarget notMid (ys.headD 0)).congr ?_
      intro x member
      by_cases hasNext : ys.headD 0 ≠ 0
      · rw [if_pos hasNext]
        apply update_of_ne
        rintro rfl
        rcases headD_mem_or ys 0 with inBack | ⟨zero, -⟩
        · exact disjoint _ member inBack
        · exact hasNext zero
      · rw [if_neg hasNext]
    · cases ys with
      | nil => trivial
      | cons y ys =>
        have yNonzero : y ≠ 0 := fun zero => backNonzero (zero ▸ mem_cons_self)
        have notRest : y ∉ ys := (List.nodup_cons.mp backNodup).1
        rw [headD_cons, if_pos yNonzero]
        have kept : ∀ x ∈ y :: ys, (if xs.getLastD 0 ≠ 0 then update links (xs.getLastD 0)
            ((links (xs.getLastD 0)).1, y) else links) x = links x := by
          intro x member
          by_cases hasPrev : xs.getLastD 0 ≠ 0
          · rw [if_pos hasPrev]
            apply update_of_ne
            rintro rfl
            rcases eq_nil_or_concat xs with rfl | ⟨mid, last, rfl⟩
            · exact hasPrev rfl
            · rw [concat_eq_append, getLastD_concat] at member
              exact disjoint last (by simp) member
          · rw [if_neg hasPrev]
        have moved := (back.congr kept).rebase notRest (xs.getLastD 0)
        exact moved
  · rw [nodup_append]
    refine ⟨frontNodup, backNodup, ?_⟩
    rintro x inFront y inBack rfl
    exact disjoint x inFront inBack
  · rw [mem_append]
    rintro (inFront | inBack)
    · exact frontNonzero inFront
    · exact backNonzero inBack

inductive Reached (links : Links) (level : Nat × Nat) : Nat → Prop where
  | head : level.1 ≠ 0 → Reached links level level.1
  | next {id : Nat} : Reached links level id → (links id).2 ≠ 0 → Reached links level (links id).2

/-- A well-formed doubly linked list, said of the words alone. -/
structure WellLinked (links : Links) (level : Nat × Nat) : Prop where
  empty : level.1 = 0 ↔ level.2 = 0
  first : level.1 ≠ 0 → (links level.1).1 = 0
  last : level.2 ≠ 0 → Reached links level level.2 ∧ (links level.2).2 = 0
  forth : ∀ id, Reached links level id → (links id).2 ≠ 0 → (links (links id).2).1 = id
  back : ∀ id, Reached links level id → (links id).1 ≠ 0 → Reached links level (links id).1 ∧ (links (links id).1).2 = id
  acyclic : ∃ rank : Nat → Nat, ∀ id, Reached links level id → (links id).2 ≠ 0 → rank id < rank (links id).2

theorem Holds.split (holds : Holds links level xs) (member : id ∈ xs) :
    ∃ before after, xs = before ++ id :: after ∧ links id = (before.getLastD 0, after.headD 0) := by
  obtain ⟨before, after, rfl⟩ := append_of_mem member
  exact ⟨before, after, rfl, stretch_middle holds.linked⟩

theorem Holds.reached_iff (holds : Holds links level xs) (id : Nat) :
    Reached links level id ↔ id ∈ xs := by
  constructor
  · intro reached
    induction reached with
    | head nonzero =>
      rw [holds.ends] at nonzero ⊢
      rcases headD_mem_or xs 0 with member | ⟨zero, -⟩
      · exact member
      · exact absurd zero nonzero
    | next _ nonzero member =>
      obtain ⟨before, after, rfl, here⟩ := holds.split member
      rw [here] at nonzero ⊢
      rcases headD_mem_or after 0 with found | ⟨zero, -⟩
      · exact mem_append_right _ (mem_cons_of_mem _ found)
      · exact absurd zero nonzero
  · -- along the list, from its head
    have along : ∀ before x after, xs = before ++ x :: after → Reached links level x := by
      intro before
      induction before using List.reverseRecOn with
      | nil =>
        intro x after whole
        have nonzero : x ≠ 0 := by
          rintro rfl
          exact holds.nonzero (by simp [whole])
        have head : level.1 = x := by
          rw [holds.ends, whole]
          rfl
        rw [← head] at nonzero ⊢
        exact .head nonzero
      | append_singleton front y ih =>
        intro x after whole
        rw [append_assoc, singleton_append] at whole
        have previous := ih y (x :: after) whole
        have linked := holds.linked
        rw [whole] at linked
        have next : (links y).2 = x := by rw [stretch_middle linked]; rfl
        have nonzero : x ≠ 0 := by
          rintro rfl
          exact holds.nonzero (by simp [whole])
        rw [← next] at nonzero ⊢
        exact .next previous nonzero
    intro member
    obtain ⟨before, after, whole, -⟩ := holds.split member
    exact along before id after whole

theorem Holds.wellLinked (holds : Holds links level xs) : WellLinked links level := by
  have forth : ∀ id, id ∈ xs → (links id).2 ≠ 0 →
      (links (links id).2).1 = id ∧ xs.idxOf id < xs.idxOf (links id).2 := by
    intro id member nonzero
    obtain ⟨before, after, rfl, here⟩ := holds.split member
    rw [here] at nonzero ⊢
    cases after with
    | nil => exact absurd rfl nonzero
    | cons next after =>
      have shifted : before ++ id :: next :: after = (before ++ [id]) ++ next :: after := by simp
      have linked := holds.linked
      have nodup := holds.nodup
      rw [shifted] at linked
      change (links next).1 = id ∧ _ < List.idxOf next _
      refine ⟨?_, ?_⟩
      · rw [stretch_middle linked]
        exact getLastD_concat
      · rw [nodup_append, nodup_cons] at nodup
        obtain ⟨-, ⟨notAfter, -⟩, apart⟩ := nodup
        have notBefore : id ∉ before := fun inside => apart id inside id mem_cons_self rfl
        have nextNotBefore : next ∉ before := fun inside => apart next inside next (by simp) rfl
        have differ : id ≠ next := fun same => notAfter (same ▸ mem_cons_self)
        rw [idxOf_append_of_notMem notBefore, idxOf_append_of_notMem nextNotBefore, idxOf_cons_self,
          idxOf_cons_ne _ differ]
        omega
  have zero := ends_eq_zero holds
  refine ⟨zero.1.trans zero.2.symm, ?_, ?_, ?_, ?_, ⟨fun id => xs.idxOf id, ?_⟩⟩
  · intro nonzero
    have linked := holds.linked
    rw [holds.ends] at nonzero ⊢
    cases xs with
    | nil => exact absurd rfl nonzero
    | cons x xs =>
      change (links x).1 = 0
      rw [linked.1]
  · intro nonzero
    have member := (holds.last_mem_or).resolve_right nonzero
    refine ⟨(holds.reached_iff _).mpr member, ?_⟩
    have linked := holds.linked
    rw [holds.ends] at nonzero ⊢
    rcases eq_nil_or_concat xs with rfl | ⟨front, last, rfl⟩
    · exact absurd rfl nonzero
    · rw [concat_eq_append] at linked ⊢
      change (links ((front ++ [last]).getLastD 0)).2 = 0
      rw [getLastD_concat, stretch_middle linked]
      rfl
  · intro id reached nonzero
    exact (forth id ((holds.reached_iff id).mp reached) nonzero).1
  · intro id reached nonzero
    obtain ⟨before, after, rfl, here⟩ := holds.split ((holds.reached_iff id).mp reached)
    rw [here] at nonzero ⊢
    rcases eq_nil_or_concat before with rfl | ⟨front, previous, rfl⟩
    · exact absurd rfl nonzero
    rw [concat_eq_append] at nonzero ⊢
    rw [getLastD_concat]
    have linked := holds.linked
    rw [concat_eq_append, append_assoc, singleton_append] at linked
    refine ⟨(holds.reached_iff previous).mpr (by simp), ?_⟩
    rw [stretch_middle linked]
    rfl
  · intro id reached nonzero
    exact (forth id ((holds.reached_iff id).mp reached) nonzero).2

end AceChain.Lib.LinkedQueue
