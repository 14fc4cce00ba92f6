import Mathlib.Data.List.Forall2
import Mathlib.Data.List.Infix
import Mathlib.Logic.Basic
import Mathlib.Algebra.Ring.Nat
import Mathlib.Algebra.Ring.Int.Defs

/-! # Guarded steps and their runs

A step of a state machine that may fail, its runs over a list of inputs, and the
rules for what every run preserves. A run stops at the first failure.
-/

namespace Hseos

variable {σ α β ε : Type}

/-- `if (bad) throw err`. -/
def reject (bad : Bool) (err : ε) : Except ε Unit := if bad then .error err else .ok ()

@[simp] theorem reject_eq_ok_iff {bad : Bool} {err : ε} {u : Unit} :
    reject bad err = .ok u ↔ bad = false := by
  cases bad <;> simp [reject]

@[simp] theorem pure_eq_ok_iff {a b : α} : (pure a : Except ε α) = .ok b ↔ a = b :=
  ⟨fun h => Except.ok.inj h, fun h => congrArg _ h⟩

@[simp] theorem throw_eq_ok_iff {err : ε} {a : α} : (throw err : Except ε α) = .ok a ↔ False :=
  ⟨fun h => (nomatch h), False.elim⟩

theorem map_eq_ok_iff {f : α → β} {x : Except ε α} {b : β} :
    Except.map f x = .ok b ↔ ∃ a, x = .ok a ∧ f a = b := by
  cases x <;> simp [Except.map]

theorem ok_bind {a : α} {f : α → Except ε β} : ((.ok a : Except ε α) >>= f) = f a := rfl

theorem ok_of_toOption_any {x : Except ε α} {check : α → Bool} (h : x.toOption.any check = true) :
    ∃ a, x = .ok a ∧ check a = true := by
  cases x with
  | error => cases h
  | ok a => exact ⟨a, rfl, h⟩

theorem bind_eq_ok_iff {x : Except ε α} {f : α → Except ε β} {b : β} :
    x >>= f = .ok b ↔ ∃ a, x = .ok a ∧ f a = .ok b := by
  cases x <;> simp [bind, Except.bind]

theorem reject_bind_eq_ok_iff {bad : Bool} {err : ε} {f : Unit → Except ε β} {b : β} :
    reject bad err >>= f = .ok b ↔ bad = false ∧ f () = .ok b := by
  cases bad <;> simp [reject, bind, Except.bind]

/-- A traversal that fails nowhere is a map. -/
theorem mapM_eq_ok_map {f : α → Except ε β} {g : α → β} {list : List α}
    (h : ∀ a ∈ list, f a = .ok (g a)) : list.mapM f = .ok (list.map g) := by
  induction list with
  | nil => rfl
  | cons a rest ih =>
      rw [List.mapM_cons, h a List.mem_cons_self, ih fun b hb => h b (List.mem_cons_of_mem _ hb)]
      rfl

/-- The results of a traversal belong to its inputs one by one. -/
theorem forall₂_of_mapM_eq_ok {f : α → Except ε β} {list : List α} {out : List β}
    (h : list.mapM f = .ok out) : List.Forall₂ (fun a b => f a = .ok b) list out := by
  induction list generalizing out with
  | nil =>
      rw [List.mapM_nil, pure_eq_ok_iff] at h
      subst h
      exact .nil
  | cons a rest ih =>
      rw [List.mapM_cons] at h
      obtain ⟨b, hb, h⟩ := bind_eq_ok_iff.mp h
      obtain ⟨others, hothers, h⟩ := bind_eq_ok_iff.mp h
      rw [pure_eq_ok_iff] at h
      subst h
      exact .cons hb (ih hothers)

/-- Every input of a traversal has a result. -/
theorem exists_of_mapM_eq_ok {f : α → Except ε β} {list : List α} {out : List β}
    (h : list.mapM f = .ok out) : ∀ a ∈ list, ∃ b ∈ out, f a = .ok b := by
  have hpairs := forall₂_of_mapM_eq_ok h
  clear h
  induction hpairs with
  | nil => simp
  | cons hab _ ih =>
      intro c hc
      rcases List.mem_cons.mp hc with rfl | hc
      · exact ⟨_, List.mem_cons_self, hab⟩
      · obtain ⟨b, hb, hcb⟩ := ih c hc
        exact ⟨b, List.mem_cons_of_mem _ hb, hcb⟩

/-- What a result takes over from its input. -/
theorem map_eq_of_mapM_eq_ok {γ : Type} {f : α → Except ε β} {list : List α} {out : List β}
    {g : β → γ} {k : α → γ} (h : list.mapM f = .ok out) (hgk : ∀ a b, f a = .ok b → g b = k a) :
    out.map g = list.map k := by
  have hpairs := forall₂_of_mapM_eq_ok h
  clear h
  induction hpairs with
  | nil => rfl
  | cons hab _ ih => rw [List.map_cons, List.map_cons, hgk _ _ hab, ih]

/-- Every result of a traversal comes from one of its inputs. -/
theorem mem_of_mapM_eq_ok {f : α → Except ε β} {list : List α} {out : List β}
    (h : list.mapM f = .ok out) : ∀ b ∈ out, ∃ a ∈ list, f a = .ok b := by
  induction list generalizing out with
  | nil =>
      rw [List.mapM_nil, pure_eq_ok_iff] at h
      simp [← h]
  | cons a rest ih =>
      rw [List.mapM_cons] at h
      obtain ⟨b, hb, h⟩ := bind_eq_ok_iff.mp h
      obtain ⟨others, hothers, h⟩ := bind_eq_ok_iff.mp h
      rw [pure_eq_ok_iff] at h
      subst h
      intro c hc
      rcases List.mem_cons.mp hc with rfl | hc
      · exact ⟨a, List.mem_cons_self, hb⟩
      · obtain ⟨a', ha', hc⟩ := ih hothers c hc
        exact ⟨a', List.mem_cons_of_mem _ ha', hc⟩

theorem mem_of_mapM_eq_some {f : α → Option β} {list : List α} {out : List β}
    (h : list.mapM f = some out) : ∀ b ∈ out, ∃ a ∈ list, f a = some b := by
  induction list generalizing out with
  | nil =>
      rw [List.mapM_nil, Option.pure_def, Option.some.injEq] at h
      simp [← h]
  | cons a rest ih =>
      rw [List.mapM_cons, Option.bind_eq_bind, Option.bind_eq_some_iff] at h
      obtain ⟨b, hb, h⟩ := h
      rw [Option.bind_eq_bind, Option.bind_eq_some_iff] at h
      obtain ⟨others, hothers, h⟩ := h
      rw [Option.pure_def, Option.some.injEq] at h
      subst h
      intro c hc
      rcases List.mem_cons.mp hc with rfl | hc
      · exact ⟨a, List.mem_cons_self, hb⟩
      · obtain ⟨a', ha', hc⟩ := ih hothers c hc
        exact ⟨a', List.mem_cons_of_mem _ ha', hc⟩

/-- Every check of a list passed. -/
theorem forM_eq_ok {f : α → Except ε Unit} {list : List α} {u : Unit}
    (h : list.forM f = .ok u) : ∀ a ∈ list, f a = .ok () := by
  induction list with
  | nil => simp
  | cons a rest ih =>
      obtain ⟨⟨⟩, ha, h⟩ := bind_eq_ok_iff.mp (show (f a >>= fun _ => rest.forM f) = .ok u from h)
      intro b hb
      rcases List.mem_cons.mp hb with rfl | hb
      · exact ha
      · exact ih h b hb

theorem filterMap_concat {α β : Type} (f : α → Option β) (past : List α) (a : α) :
    (past ++ [a]).filterMap f = past.filterMap f ++ (f a).toList := by
  rw [List.filterMap_append]
  cases hf : f a <;> simp [hf]

/-- The failure of an action that is not possible in a state. -/
inductive Disabled where
  | disabled
  deriving DecidableEq

/-- The state after all inputs, or the first failure. -/
def run (step : σ → α → Except ε σ) : σ → List α → Except ε σ
  | s, [] => .ok s
  | s, a :: rest => step s a >>= fun s' => run step s' rest

/-- The state after the inputs before the first failure. -/
def lastGood (step : σ → α → Except ε σ) : σ → List α → σ
  | s, [] => s
  | s, a :: rest =>
      match step s a with
      | .ok s' => lastGood step s' rest
      | .error _ => s

variable {step : σ → α → Except ε σ}

@[simp] theorem run_nil (s : σ) : run step s [] = .ok s := rfl

theorem run_cons {s : σ} {a : α} {rest : List α} :
    run step s (a :: rest) = step s a >>= fun s' => run step s' rest := rfl

theorem run_append {s : σ} {first second : List α} :
    run step s (first ++ second) = run step s first >>= fun s' => run step s' second := by
  induction first generalizing s with
  | nil => rfl
  | cons a rest ih =>
      rw [List.cons_append, run_cons, run_cons]
      cases step s a with
      | error e => rfl
      | ok s' => exact ih

theorem run_snoc_eq_ok_iff {s s' : σ} {past : List α} {a : α} :
    run step s (past ++ [a]) = .ok s' ↔ ∃ mid, run step s past = .ok mid ∧ step mid a = .ok s' := by
  rw [run_append, bind_eq_ok_iff]
  simp only [run_cons, run_nil, bind_eq_ok_iff, Except.ok.injEq, exists_eq_right]

/-- A run over a list with a distinguished input passes through its step. -/
theorem run_split {s s' : σ} {past future : List α} {a : α}
    (h : run step s (past ++ a :: future) = .ok s') :
    ∃ before after, run step s past = .ok before ∧ step before a = .ok after ∧
      run step after future = .ok s' := by
  obtain ⟨before, hpast, h⟩ := bind_eq_ok_iff.mp (run_append ▸ h)
  obtain ⟨after, hstep, h⟩ := bind_eq_ok_iff.mp (run_cons ▸ h)
  exact ⟨before, after, hpast, hstep, h⟩

/-- What holds of the empty history and is kept by each step holds of every run. -/
theorem run_history {P : List α → σ → Prop} {s s' : σ} {inputs : List α} (hinit : P [] s)
    (hstep : ∀ past mid a next, run step s past = .ok mid → P past mid → step mid a = .ok next →
      P (past ++ [a]) next)
    (h : run step s inputs = .ok s') : P inputs s' := by
  induction inputs using List.reverseRecOn generalizing s' with
  | nil =>
      rw [run_nil, Except.ok.injEq] at h
      exact h ▸ hinit
  | append_singleton past a ih =>
      obtain ⟨mid, hpast, ha⟩ := run_snoc_eq_ok_iff.mp h
      exact hstep past mid a s' hpast (ih hpast) ha

/-- An invariant of each step is an invariant of every run. -/
theorem run_invariant {P : σ → Prop} {s s' : σ} {inputs : List α} (hinit : P s)
    (hstep : ∀ mid a next, P mid → step mid a = .ok next → P next)
    (h : run step s inputs = .ok s') : P s' :=
  run_history (P := fun _ => P) hinit (fun _ mid a next _ => hstep mid a next) h

theorem run_of_isPrefix {s s' : σ} {past inputs : List α} (hpast : past <+: inputs)
    (h : run step s inputs = .ok s') : ∃ mid, run step s past = .ok mid := by
  obtain ⟨future, rfl⟩ := hpast
  obtain ⟨mid, hpast, -⟩ := bind_eq_ok_iff.mp (run_append ▸ h)
  exact ⟨mid, hpast⟩

/-- The inputs run to a state that passes a check. -/
def runsTo (step : σ → α → Except ε σ) (s : σ) (inputs : List α) (check : σ → Bool) : Bool :=
  match run step s inputs with
  | .ok s' => check s'
  | .error _ => false

theorem runsTo_iff {s : σ} {inputs : List α} {check : σ → Bool} :
    runsTo step s inputs check = true ↔ ∃ s', run step s inputs = .ok s' ∧ check s' = true := by
  unfold runsTo
  cases run step s inputs <;> simp

/-! ## Conditions on the inputs of a run -/

/-- Each input of the list meets a condition on it and on the inputs before it. -/
def Throughout (Q : List α → α → Prop) (inputs : List α) : Prop :=
  ∀ past a future, inputs = past ++ a :: future → Q past a

section

variable {Q : List α → α → Prop} {past inputs : List α} {a : α}

theorem Throughout.of_isPrefix (h : Throughout Q inputs) (hpast : past <+: inputs) :
    Throughout Q past := by
  obtain ⟨rest, rfl⟩ := hpast
  intro before b future hpast
  exact h before b (future ++ rest) (by simp [hpast])

theorem Throughout.last (h : Throughout Q (past ++ [a])) : Q past a := h past a [] rfl

theorem Throughout.snoc (h : Throughout Q past) (ha : Q past a) : Throughout Q (past ++ [a]) := by
  intro before b future hsplit
  rcases List.eq_nil_or_concat' future with rfl | ⟨others, last, rfl⟩
  · obtain ⟨rfl, hlast⟩ := List.append_inj' hsplit rfl
    obtain rfl := List.singleton_inj.mp hlast
    exact ha
  · rw [← List.cons_append, ← List.append_assoc] at hsplit
    exact h before b others (List.append_inj' hsplit rfl).1

theorem throughout_iff_getElem :
    Throughout Q inputs ↔ ∀ i, (h : i < inputs.length) → Q (inputs.take i) inputs[i] := by
  constructor
  · intro h i hi
    exact h _ _ (inputs.drop (i + 1)) (by simp)
  · rintro h past a future rfl
    simpa using h past.length (by simp)

instance [∀ past a, Decidable (Q past a)] : Decidable (Throughout Q inputs) :=
  decidable_of_iff _ throughout_iff_getElem.symm

end

/-- What holds of the empty history and is kept by each step whose input meets the
condition holds of every run whose inputs all meet it. -/
theorem run_throughout {P : List α → σ → Prop} {Q : List α → α → Prop} {s s' : σ} {inputs : List α}
    (hinit : P [] s)
    (hstep : ∀ past mid a next, run step s past = .ok mid → P past mid → Q past a →
      step mid a = .ok next → P (past ++ [a]) next)
    (hinputs : Throughout Q inputs) (h : run step s inputs = .ok s') : P inputs s' := by
  refine run_history (P := fun past mid => Throughout Q past → P past mid) (fun _ => hinit) ?_ h
    hinputs
  intro past mid a next hpast hmid ha hthroughout
  exact hstep past mid a next hpast (hmid (hthroughout.of_isPrefix (List.prefix_append past [a])))
    hthroughout.last ha

theorem lastGood_of_run_eq_ok {s s' : σ} {inputs : List α} (h : run step s inputs = .ok s') :
    lastGood step s inputs = s' := by
  induction inputs generalizing s with
  | nil => simpa [lastGood] using h
  | cons a rest ih =>
      obtain ⟨mid, hstep, h⟩ := bind_eq_ok_iff.mp (run_cons ▸ h)
      simp only [lastGood, hstep]
      exact ih h

end Hseos
