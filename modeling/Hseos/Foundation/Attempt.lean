import Hseos.Foundation.Run

/-! # Attempts

Computations that may fail and that write to a memory, where a failure does not
undo what was written before it. The rules say what an attempt leads to from the
memories that meet a condition, and what it gives while an invariant is kept.
-/

namespace Hseos

/-- A computation over a memory that returns a value or fails. -/
abbrev Attempt (μ ε α : Type) := ExceptT ε (StateM μ) α

namespace Attempt

variable {μ ε α β : Type}

/-- The result of an attempt and the memory it leaves. -/
def outcome (x : Attempt μ ε α) (memory : μ) : Except ε α × μ := x.run.run memory

section

variable {x : Attempt μ ε α} {f : α → Attempt μ ε β} {e : Except ε α} {a : α} {memory m : μ}

@[simp] theorem outcome_pure : outcome (pure a : Attempt μ ε α) memory = (.ok a, memory) := rfl

@[simp] theorem outcome_lift :
    outcome (liftM e : Attempt μ ε α) memory = (e, memory) := rfl

@[simp] theorem outcome_get : outcome (get : Attempt μ ε μ) memory = (.ok memory, memory) := rfl

@[simp] theorem outcome_set : outcome (set m : Attempt μ ε PUnit) memory = (.ok ⟨⟩, m) := rfl

theorem outcome_bind : outcome (x >>= f) memory =
    match outcome x memory with
    | (.ok a, m) => outcome (f a) m
    | (.error err, m) => (.error err, m) := by
  simp only [outcome, ExceptT.run_bind, StateT.run_bind]
  cases x.run.run memory with
  | mk result m => cases result <;> rfl

theorem outcome_bind_eq_ok {b : β} {m' : μ} (h : outcome (x >>= f) memory = (.ok b, m')) :
    ∃ a m, outcome x memory = (.ok a, m) ∧ outcome (f a) m = (.ok b, m') := by
  rw [outcome_bind] at h
  split at h
  next a m hx => exact ⟨a, m, hx, h⟩
  · cases h

end

/-! ## What an attempt leads to -/

/-- From a memory in `P`, a value and the memory beside it are in `Q`, and the memory
that a failure leaves is in `R`. -/
def Leads (P : μ → Prop) (x : Attempt μ ε α) (Q : α → μ → Prop) (R : μ → Prop) : Prop :=
  ∀ memory, P memory →
    match outcome x memory with
    | (.ok a, m) => Q a m
    | (.error _, m) => R m

section

variable {P P' R : μ → Prop} {Q Q' : α → μ → Prop} {S : β → μ → Prop} {x : Attempt μ ε α}
  {f : α → Attempt μ ε β} {e : Except ε α} {a : α}

theorem Leads.pure (h : ∀ m, P m → Q a m) : Leads P (Pure.pure a : Attempt μ ε α) Q R :=
  fun m hm => h m hm

theorem Leads.lift (hok : ∀ a m, e = .ok a → P m → Q a m) (herror : ∀ m, P m → R m) :
    Leads P (liftM e : Attempt μ ε α) Q R := by
  intro m hm
  rw [outcome_lift]
  cases e with
  | ok a => exact hok a m rfl hm
  | error err => exact herror m hm

theorem Leads.get {Q : μ → μ → Prop} (h : ∀ m, P m → Q m m) :
    Leads P (MonadState.get : Attempt μ ε μ) Q R :=
  fun m hm => h m hm

theorem Leads.set {m' : μ} {Q : PUnit → μ → Prop} (h : ∀ m, P m → Q ⟨⟩ m') :
    Leads P (MonadStateOf.set m' : Attempt μ ε PUnit) Q R :=
  fun m hm => h m hm

theorem Leads.bind (hx : Leads P x Q R) (hf : ∀ a, Leads (Q a) (f a) S R) :
    Leads P (x >>= f) S R := by
  intro m hm
  have h := hx m hm
  rw [outcome_bind]
  rcases hout : outcome x m with ⟨_ | a, m'⟩
  · rwa [hout] at h
  · rw [hout] at h
    exact hf a m' h

/-- A check that touches no memory. -/
theorem Leads.check (herror : ∀ m, P m → R m) (h : ∀ a, e = .ok a → Leads P (f a) S R) :
    Leads P (liftM e >>= f) S R := by
  intro m hm
  rw [outcome_bind, outcome_lift]
  cases e with
  | error err => exact herror m hm
  | ok a => exact h a rfl m hm

theorem Leads.imp (hx : Leads P x Q R) (hP : ∀ m, P' m → P m) (hQ : ∀ a m, Q a m → Q' a m) :
    Leads P' x Q' R := by
  intro m hm
  have h := hx m (hP m hm)
  rcases hout : outcome x m with ⟨_ | a, m'⟩
  · rwa [hout] at h
  · rw [hout] at h
    exact hQ a m' h

end

/-! ## What an attempt gives -/

/-- While `I` is kept the attempt returns the value of `r`, or fails where `r` has none. -/
def Gives (I : μ → Prop) (x : Attempt μ ε α) (r : Option α) : Prop :=
  ∀ memory, I memory → (outcome x memory).1.toOption = r ∧ I (outcome x memory).2

section

variable {I : μ → Prop} {x : Attempt μ ε α} {f : α → Attempt μ ε β} {e : Except ε α} {a : α}
  {r : Option α} {g : α → Option β}

theorem Gives.pure : Gives I (Pure.pure a : Attempt μ ε α) (some a) := fun _ hm => ⟨rfl, hm⟩

theorem Gives.lift : Gives I (liftM e : Attempt μ ε α) e.toOption := fun _ hm => ⟨rfl, hm⟩

theorem Gives.bind (hx : Gives I x r) (hf : ∀ a, r = some a → Gives I (f a) (g a)) :
    Gives I (x >>= f) (r >>= g) := by
  intro m hm
  obtain ⟨hvalue, hkept⟩ := hx m hm
  rw [outcome_bind]
  rcases hout : outcome x m with ⟨_ | a, m'⟩
  · rw [hout] at hvalue hkept
    obtain rfl : r = none := hvalue.symm
    exact ⟨rfl, hkept⟩
  · rw [hout] at hvalue hkept
    obtain rfl : r = some a := hvalue.symm
    exact hf a rfl m' hkept

theorem Gives.leads (hx : Gives I x r) : Leads I x (fun a m => r = some a ∧ I m) I := by
  intro m hm
  obtain ⟨hvalue, hkept⟩ := hx m hm
  rcases hout : outcome x m with ⟨_ | a, m'⟩
  · rwa [hout] at hkept
  · rw [hout] at hvalue hkept
    exact ⟨hvalue.symm, hkept⟩

end

end Attempt

end Hseos
