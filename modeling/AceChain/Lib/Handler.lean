import Mathlib.Order.Defs.Unbundled

namespace AceChain.Lib

/-- Code that works on a state in place and may stop with an error half-way; what it wrote before stays. -/
def Handler (σ ε α : Type) : Type := σ → Except ε α × σ

namespace Handler

variable {σ ε α β : Type}

def andThen (x : Handler σ ε α) (f : α → Handler σ ε β) : Handler σ ε β := fun s =>
  match x s with
  | (.ok a, s) => f a s
  | (.error e, s) => (.error e, s)

instance : Monad (Handler σ ε) where
  pure a := fun s => (.ok a, s)
  bind := andThen

def require (c : Prop) [Decidable c] (e : ε) : Handler σ ε Unit := fun s => (if c then .ok () else .error e, s)

def fetch (f : σ → Except ε α) : Handler σ ε α := fun s => (f s, s)

def demand (f : σ → Option α) (e : ε) : Handler σ ε α := fun s =>
  match f s with
  | some a => (.ok a, s)
  | none => (.error e, s)

def read (f : σ → α) : Handler σ ε α := fun s => (.ok (f s), s)

def write (f : σ → σ) : Handler σ ε Unit := fun s => (.ok (), f s)

def atomically (x : Handler σ ε α) : Handler σ ε α := fun s =>
  match x s with
  | (.ok a, s') => (.ok a, s')
  | (.error e, _) => (.error e, s)

def adapt {δ : Type} (wrap : δ → ε) (x : Handler σ δ α) : Handler σ ε α := fun s =>
  match x s with
  | (.ok a, s') => (.ok a, s')
  | (.error e, s') => (.error (wrap e), s')

section

variable {x : Handler σ ε α} {f : α → Handler σ ε β} {s s' : σ} {a : α} {b : β} {a' : α} {u : Unit}

theorem ok_bind : (x >>= f) s = (.ok b, s') ↔ ∃ a mid, x s = (.ok a, mid) ∧ f a mid = (.ok b, s') := by
  change andThen x f s = _ ↔ _
  unfold andThen
  cases done : x s with
  | mk result mid =>
    cases result with
    | ok a =>
      constructor
      · intro rest
        exact ⟨a, mid, rfl, rest⟩
      · rintro ⟨_, _, same, rest⟩
        cases same
        exact rest
    | error e => simp

theorem ok_pure : (pure a : Handler σ ε α) s = (.ok a', s') ↔ a = a' ∧ s = s' := by
  change ((.ok a, s) : Except ε α × σ) = _ ↔ _
  rw [Prod.mk.injEq, Except.ok.injEq]

theorem ok_require {c : Prop} [Decidable c] {e : ε} : require c e s = (.ok u, s') ↔ c ∧ s = s' := by
  unfold require
  by_cases holds : c
  · simp [holds]
  · simp [holds]

theorem ok_fetch {f : σ → Except ε α} : fetch f s = (.ok a, s') ↔ f s = .ok a ∧ s = s' := by
  unfold fetch
  rw [Prod.mk.injEq]

theorem ok_demand {f : σ → Option α} {e : ε} : demand f e s = (.ok a, s') ↔ f s = some a ∧ s = s' := by
  unfold demand
  cases f s <;> simp

theorem ok_read {f : σ → α} : (read f : Handler σ ε α) s = (.ok a, s') ↔ f s = a ∧ s = s' := by
  unfold read
  rw [Prod.mk.injEq, Except.ok.injEq]

theorem ok_atomically : atomically x s = (.ok a, s') ↔ x s = (.ok a, s') := by
  unfold atomically
  cases x s with
  | mk result mid => cases result <;> simp

theorem atomically_error {e : ε} (failed : atomically x s = (.error e, s')) : s' = s := by
  unfold atomically at failed
  cases done : x s with
  | mk result mid =>
    rw [done] at failed
    cases result with
    | ok a => cases failed
    | error e =>
      cases failed
      rfl

theorem ok_adapt {δ : Type} {wrap : δ → ε} {x : Handler σ δ α} : adapt wrap x s = (.ok a, s') ↔ x s = (.ok a, s') := by
  unfold adapt
  cases x s with
  | mk result mid => cases result <;> simp

theorem ok_write {f : σ → σ} : (write f : Handler σ ε Unit) s = (.ok u, s') ↔ f s = s' := by
  unfold write
  simp

end

section

variable {x : Handler σ ε α} {f : α → Handler σ ε β} {s : σ} {e : ε}

theorem run_read (g : σ → α) : (read g >>= f) s = f (g s) s := rfl

theorem run_write (g : σ → σ) (f : Unit → Handler σ ε β) : (write g >>= f) s = f () (g s) := rfl

theorem run_require {c : Prop} [Decidable c] (holds : c) (f : Unit → Handler σ ε β) : (require c e >>= f) s = f () s := by
  change andThen (require c e) f s = _
  unfold andThen require
  rw [if_pos holds]

theorem run_require_not {c : Prop} [Decidable c] (fails : ¬ c) (f : Unit → Handler σ ε β) :
    (require c e >>= f) s = (.error e, s) := by
  change andThen (require c e) f s = _
  unfold andThen require
  rw [if_neg fails]

theorem run_demand {g : σ → Option α} (a : α) (found : g s = some a) : (demand g e >>= f) s = f a s := by
  change andThen (demand g e) f s = _
  unfold andThen demand
  rw [found]

theorem run_demand_none {g : σ → Option α} (missing : g s = none) : (demand g e >>= f) s = (.error e, s) := by
  change andThen (demand g e) f s = _
  unfold andThen demand
  rw [missing]

theorem run_bind {mid : σ} {a : α} (done : x s = (.ok a, mid)) : (x >>= f) s = f a mid := by
  change andThen x f s = _
  unfold andThen
  rw [done]

theorem run_bind_error {mid : σ} (failed : x s = (.error e, mid)) : (x >>= f) s = (.error e, mid) := by
  change andThen x f s = _
  unfold andThen
  rw [failed]

end

/-- However it ends, the state it leaves is related to the one it found. -/
def Keeps (R : σ → σ → Prop) (x : Handler σ ε α) : Prop := ∀ s, R s (x s).2

section

variable {R : σ → σ → Prop} [IsPreorder σ R] {x : Handler σ ε α} {f : α → Handler σ ε β}

theorem Keeps.bind (first : Keeps R x) (second : ∀ a, Keeps R (f a)) : Keeps R (x >>= f) := by
  intro s
  change R s (andThen x f s).2
  have kept := first s
  unfold andThen
  cases done : x s with
  | mk result mid =>
    rw [done] at kept
    cases result with
    | ok a => exact trans_of R kept (second a mid)
    | error e => exact kept

theorem Keeps.pure (a : α) : Keeps R (pure a : Handler σ ε α) := fun s => refl_of R s

theorem Keeps.require (c : Prop) [Decidable c] (e : ε) : Keeps R (require c e) := fun s => refl_of R s

theorem Keeps.fetch (f : σ → Except ε α) : Keeps R (fetch f) := fun s => refl_of R s

theorem Keeps.demand (f : σ → Option α) (e : ε) : Keeps R (demand f e) := by
  intro s
  unfold Handler.demand
  cases f s <;> exact refl_of R s

theorem Keeps.read (f : σ → α) : Keeps R (read f : Handler σ ε α) := fun s => refl_of R s

end

/-- An error leaves the state as it was found. -/
def Clean (x : Handler σ ε α) : Prop := ∀ s e s', x s = (.error e, s') → s' = s

theorem Clean.bind {x : Handler σ ε α} {f : α → Handler σ ε β} (looks : Keeps Eq x) (rest : ∀ a, Clean (f a)) :
    Clean (x >>= f) := by
  intro s e s' failed
  have same := looks s
  change andThen x f s = _ at failed
  unfold andThen at failed
  cases done : x s with
  | mk result mid =>
    rw [done] at failed same
    cases result with
    | ok a => exact (rest a mid e s' failed).trans same.symm
    | error _ =>
      cases failed
      exact same.symm

theorem Clean.atomically (x : Handler σ ε α) : Clean (atomically x) := fun _ _ _ failed => atomically_error failed

theorem Clean.cases {x : Handler σ ε α} (clean : Clean x) (s : σ) : (x s).2 = s ∨ ∃ a s', x s = (.ok a, s') := by
  cases done : x s with
  | mk result s' =>
    cases result with
    | ok a => exact Or.inr ⟨a, s', rfl⟩
    | error e => exact Or.inl (clean s e s' done)

/-- Where `P` holds before and it returns, `Q` holds after. A class: instances go through the steps of a block. -/
class Leads (P : σ → Prop) (x : Handler σ ε α) (Q : α → σ → Prop) : Prop where
  leads : ∀ ⦃s a s'⦄, x s = (.ok a, s') → P s → Q a s'

abbrev Stays (I : σ → Prop) (x : Handler σ ε α) : Prop := Leads I x (fun _ => I)

section

variable {P I : σ → Prop} {Q : α → σ → Prop} {x y : Handler σ ε α} {f : α → Handler σ ε β} {e : ε}

theorem Stays.of_same (same : ∀ s a s', x s = (.ok a, s') → s = s') : Stays I x :=
  ⟨fun s a s' done before => same s a s' done ▸ before⟩

theorem Leads.write {g : σ → σ} {Q : Unit → σ → Prop} (after : ∀ s, P s → Q () (g s)) :
    Leads P (write g : Handler σ ε Unit) Q :=
  ⟨fun s _ _ done before => ok_write.mp done ▸ after s before⟩

instance : Leads P x (fun _ _ => True) := ⟨fun _ _ _ _ _ => trivial⟩

theorem Leads.bind {Q : β → σ → Prop} (first : Leads P x (fun _ => I)) (rest : ∀ a, Leads I (f a) Q) :
    Leads P (x >>= f) Q where
  leads _ _ _ done before := by
    obtain ⟨a, mid, moved, done⟩ := ok_bind.mp done
    exact (rest a).leads done (first.leads moved before)

instance [Leads P x (fun _ => I)] [∀ a, Leads I (f a) (fun _ => I)] : Leads P (x >>= f) (fun _ => I) := .bind ‹_› ‹_›

instance {Q : β → σ → Prop} [Leads P x (fun _ => P)] [∀ a, Leads P (f a) Q] : Leads P (x >>= f) Q := .bind ‹_› ‹_›

instance (a : α) : Stays I (pure a : Handler σ ε α) := .of_same fun _ _ _ done => (ok_pure.mp done).2

instance (c : Prop) [Decidable c] : Stays I (require c e) := .of_same fun _ _ _ done => (ok_require.mp done).2

instance (g : σ → Except ε α) : Stays I (fetch g) := .of_same fun _ _ _ done => (ok_fetch.mp done).2

instance (g : σ → Option α) : Stays I (demand g e) := .of_same fun _ _ _ done => (ok_demand.mp done).2

instance (g : σ → α) : Stays I (read g : Handler σ ε α) := .of_same fun _ _ _ done => (ok_read.mp done).2

instance {δ : Type} (wrap : ε → δ) [Leads P x Q] :
    Leads P (adapt wrap x) Q := ⟨fun _ _ _ done => Leads.leads (ok_adapt.mp done)⟩

instance [Leads P x Q] : Leads P (atomically x) Q := ⟨fun _ _ _ done => Leads.leads (ok_atomically.mp done)⟩

instance (c : Prop) [Decidable c] [Leads P x Q] [Leads P y Q] : Leads P (if c then x else y) Q := by
  split <;> infer_instance

instance {g : σ → Bool} {f : Bool → Unit → Handler σ ε β} :
    Leads (fun s => g s = true) (read g >>= fun found => require (found = false) e >>= f found) (fun _ _ => False) where
  leads _ _ _ done on := by
    rw [run_read, on] at done
    obtain ⟨_, _, refused, -⟩ := ok_bind.mp done
    cases (ok_require.mp refused).1

theorem Stays.ok [stays : Stays I x] {s s' : σ} {a : α} (done : x s = (.ok a, s')) (before : I s) : I s' :=
  stays.leads done before

theorem Stays.of_clean [Stays I x] (clean : Clean x) (s : σ) (before : I s) : I (x s).2 := by
  rcases clean.cases s with same | ⟨a, s', done⟩
  · rwa [same]
  · rw [done]
    exact Stays.ok done before

end

/-- A run returns with what `Q` says, or stops with an allowed error. -/
def Yields (allowed : ε → Prop) (x : Handler σ ε α) (s : σ) (Q : α → σ → Prop) : Prop :=
  match x s with
  | (.ok a, s') => Q a s'
  | (.error e, _) => allowed e

namespace Yields

variable {allowed : ε → Prop} {x : Handler σ ε α} {f : α → Handler σ ε β} {s s' : σ} {a : α} {e : ε}
variable {P Q : α → σ → Prop} {R : β → σ → Prop}

theorem of_ok (done : x s = (.ok a, s')) (post : Q a s') : Yields allowed x s Q := by
  unfold Yields
  rw [done]
  exact post

theorem of_error (failed : x s = (.error e, s')) (stops : allowed e) : Yields allowed x s Q := by
  unfold Yields
  rw [failed]
  exact stops

theorem elim (yields : Yields allowed x s Q) (done : x s = (.ok a, s')) : Q a s' := by
  unfold Yields at yields
  rw [done] at yields
  exact yields

theorem elim_error (yields : Yields allowed x s Q) (failed : x s = (.error e, s')) : allowed e := by
  unfold Yields at yields
  rw [failed] at yields
  exact yields

theorem mono (yields : Yields allowed x s P) (weaker : ∀ a s', P a s' → Q a s') : Yields allowed x s Q := by
  unfold Yields at yields ⊢
  cases done : x s with
  | mk result mid =>
    rw [done] at yields
    cases result with
    | ok a => exact weaker a mid yields
    | error e => exact yields

theorem told (yields : Yields allowed x s Q) : Yields allowed x s (fun a s' => x s = (.ok a, s') ∧ Q a s') := by
  unfold Yields at yields ⊢
  cases done : x s with
  | mk result mid =>
    rw [done] at yields
    cases result with
    | ok a => exact ⟨rfl, yields⟩
    | error e => exact yields

theorem and (first : Yields allowed x s P) (second : Yields allowed x s Q) :
    Yields allowed x s (fun a s' => P a s' ∧ Q a s') := by
  unfold Yields at *
  cases done : x s with
  | mk result mid =>
    rw [done] at first second
    cases result with
    | ok a => exact ⟨first, second⟩
    | error e => exact first

theorem bind (first : Yields allowed x s P) (second : ∀ a mid, P a mid → Yields allowed (f a) mid R) :
    Yields allowed (x >>= f) s R := by
  change Yields allowed (andThen x f) s R
  unfold Yields andThen at *
  cases done : x s with
  | mk result mid =>
    rw [done] at first
    cases result with
    | ok a => exact second a mid first
    | error e => exact first

theorem bind_ok (done : x s = (.ok a, s')) (rest : Yields allowed (f a) s' R) : Yields allowed (x >>= f) s R := by
  unfold Yields at rest ⊢
  rw [run_bind done]
  exact rest

theorem pure (post : Q a s) : Yields allowed (pure a) s Q := post

theorem write {g : σ → σ} {Q : Unit → σ → Prop} (post : Q () (g s)) : Yields allowed (write g) s Q := post

theorem read {g : σ → α} (rest : Yields allowed (f (g s)) s R) : Yields allowed (read g >>= f) s R := rest

theorem require {c : Prop} [Decidable c] (stops : allowed e) : Yields allowed (require c e) s (fun _ s' => c ∧ s = s') := by
  unfold Yields Handler.require
  by_cases holds : c
  · rw [if_pos holds]
    exact ⟨holds, rfl⟩
  · rw [if_neg holds]
    exact stops

theorem demand {g : σ → Option α} (stops : allowed e) : Yields allowed (demand g e) s (fun a s' => g s = some a ∧ s = s') := by
  unfold Yields Handler.demand
  cases g s with
  | none => exact stops
  | some a => exact ⟨rfl, rfl⟩

theorem fetch {g : σ → Except ε α} (stops : ∀ e, g s = .error e → allowed e) :
    Yields allowed (fetch g) s (fun a s' => g s = .ok a ∧ s = s') := by
  unfold Yields Handler.fetch
  cases found : g s with
  | ok a => exact ⟨rfl, rfl⟩
  | error e => exact stops e found

end Yields

end Handler

end AceChain.Lib
