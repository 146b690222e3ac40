import Mathlib.Data.Option.Basic
import Mathlib.Order.Basic

/-!
# Machines with refusable steps

A machine is a step function into `Option`: `none` says that the action is not
possible in that state. The induction over runs is done once here and used by every
run-level result.

## Main definitions

* `Machine.run` — the state after a list of actions, if every one was possible.
* `Machine.Along` — each action of a run meets a condition where it is taken.

## Main results

* `Machine.run_keeps` — what every step keeps holds at the end of a run.
* `Machine.Along.run_isSome` — a run whose actions all meet a sufficient condition goes
  through.
* `Machine.iff_along`, `Machine.eq_iff_along` — a property that the steps that miss a condition
  end, and a quantity that grows at them.
-/

namespace Library

variable {σ α : Type*}

/-- A step function; `none` refuses the action. -/
abbrev Machine (σ α : Type*) := σ → α → Option σ

namespace Machine

/-- The state after the actions, or `none` when one of them was refused. -/
def run (step : Machine σ α) : σ → List α → Option σ
  | s, [] => some s
  | s, a :: rest => (step s a).bind fun t => run step t rest

@[simp] theorem run_nil (step : Machine σ α) (s : σ) : run step s [] = some s := rfl

@[simp] theorem run_cons (step : Machine σ α) (s : σ) (a : α) (rest : List α) :
    run step s (a :: rest) = (step s a).bind fun t => run step t rest := rfl

theorem run_cons_eq_some {step : Machine σ α} {s t : σ} {a : α} {rest : List α} :
    run step s (a :: rest) = some t ↔ ∃ u, step s a = some u ∧ run step u rest = some t := by
  simp [Option.bind_eq_some_iff]

theorem run_append (step : Machine σ α) (s : σ) (actions more : List α) :
    run step s (actions ++ more) = (run step s actions).bind fun t => run step t more := by
  induction actions generalizing s with
  | nil => rfl
  | cons a rest ih =>
    simp only [List.cons_append, run_cons]
    cases step s a with
    | none => rfl
    | some t => exact ih t

/-- A property kept by every step is kept by every run. -/
theorem run_keeps {step : Machine σ α} {inv : σ → Prop}
    (keeps : ∀ s a t, inv s → step s a = some t → inv t)
    {s t : σ} {actions : List α} (hs : inv s) (h : run step s actions = some t) : inv t := by
  induction actions generalizing s with
  | nil =>
    obtain rfl := Option.some.inj h
    exact hs
  | cons a rest ih =>
    obtain ⟨u, hu, ht⟩ := run_cons_eq_some.mp h
    exact ih (keeps s a u hs hu) ht

/-- What relates the states before and after each step relates the ends of a run. -/
theorem run_rel {step : Machine σ α} (rel : σ → σ → Prop) (refl : ∀ s, rel s s)
    (trans : ∀ s t u, rel s t → rel t u → rel s u) {s t : σ} {actions : List α}
    (each : ∀ s, ∀ a ∈ actions, ∀ t, step s a = some t → rel s t)
    (h : run step s actions = some t) : rel s t := by
  induction actions generalizing s with
  | nil =>
    obtain rfl := Option.some.inj h
    exact refl s
  | cons a rest ih =>
    obtain ⟨u, hu, ht⟩ := run_cons_eq_some.mp h
    have hrest : rel u t := ih (fun s b hb => each s b (List.mem_cons_of_mem a hb)) ht
    exact trans s u t (each s a List.mem_cons_self u hu) hrest

/-- Each action meets the condition in the state in which it is taken, up to the first one
that is refused. -/
def Along (step : Machine σ α) (P : σ → α → Prop) : σ → List α → Prop
  | _, [] => True
  | s, a :: rest => P s a ∧ ∀ t, step s a = some t → Along step P t rest

section Along

variable {step : Machine σ α} {inv : σ → Prop} {P Q : σ → α → Prop} {s t : σ} {actions : List α}

/-- What the steps that meet the condition keep holds at the end of the run. -/
theorem Along.keeps (inv : σ → Prop)
    (keeps : ∀ s a t, inv s → P s a → step s a = some t → inv t) (hs : inv s)
    (h : Along step P s actions) (hrun : run step s actions = some t) : inv t := by
  induction actions generalizing s with
  | nil =>
    obtain rfl := Option.some.inj hrun
    exact hs
  | cons a rest ih =>
    obtain ⟨u, hu, ht⟩ := run_cons_eq_some.mp hrun
    exact ih (keeps s a u hs h.1 hu) (h.2 u hu) ht

/-- A condition that is enough for the step to be possible lets the run go through. -/
theorem Along.run_isSome (keeps : ∀ s a t, inv s → step s a = some t → inv t)
    (possible : ∀ s a, inv s → P s a → (step s a).isSome) (hs : inv s)
    (h : Along step P s actions) : (run step s actions).isSome := by
  induction actions generalizing s with
  | nil => rfl
  | cons a rest ih =>
    obtain ⟨u, hu⟩ := Option.isSome_iff_exists.mp (possible s a hs h.1)
    rw [run_cons, hu, Option.bind_some]
    exact ih (keeps s a u hs hu) (h.2 u hu)

/-- Conditions that are equivalent in the states of the run. -/
theorem along_congr (keeps : ∀ s a t, inv s → step s a = some t → inv t)
    (equiv : ∀ s a, inv s → (P s a ↔ Q s a)) (hs : inv s) :
    Along step P s actions ↔ Along step Q s actions := by
  induction actions generalizing s with
  | nil => rfl
  | cons a rest ih =>
    refine and_congr (equiv s a hs) (forall_congr' fun u => ?_)
    exact imp_congr_right fun hu => ih (keeps s a u hs hu)

/-- A property that is kept by the steps that meet a condition, and ended for good by all others. -/
theorem iff_along (prop : σ → Prop) (keeps : ∀ s a t, inv s → step s a = some t → inv t)
    (each : ∀ s a t, inv s → step s a = some t → (prop t ↔ prop s ∧ P s a))
    (hs : inv s) (hrun : run step s actions = some t) :
    prop t ↔ prop s ∧ Along step P s actions := by
  induction actions generalizing s with
  | nil =>
    obtain rfl := Option.some.inj hrun
    simp [Along]
  | cons a rest ih =>
    obtain ⟨u, hu, ht⟩ := run_cons_eq_some.mp hrun
    have hrest : (∀ t, step s a = some t → Along step P t rest) ↔ Along step P u rest := by
      simp [hu]
    rw [ih (keeps s a u hs hu) ht, each s a u hs hu, Along, hrest, and_assoc]

/-- A quantity that stays at the steps that meet a condition and grows at all others is the same at
the end of a run exactly when all of its steps have met the condition. -/
theorem eq_iff_along {β : Type*} [PartialOrder β] (μ : σ → β)
    (keeps : ∀ s a t, inv s → step s a = some t → inv t)
    (grows : ∀ s a t, inv s → step s a = some t → P s a ∧ μ t = μ s ∨ ¬ P s a ∧ μ s < μ t)
    (hs : inv s) (hrun : run step s actions = some t) :
    μ s ≤ μ t ∧ (μ t = μ s ↔ Along step P s actions) := by
  induction actions generalizing s with
  | nil =>
    obtain rfl := Option.some.inj hrun
    exact ⟨le_refl _, iff_of_true rfl trivial⟩
  | cons a rest ih =>
    obtain ⟨u, hu, ht⟩ := run_cons_eq_some.mp hrun
    obtain ⟨hle, hiff⟩ := ih (keeps s a u hs hu) ht
    have hrest : (∀ t, step s a = some t → Along step P t rest) ↔ Along step P u rest := by
      simp [hu]
    rw [Along, hrest, ← hiff]
    rcases grows s a u hs hu with ⟨hP, heq⟩ | ⟨hP, hlt⟩
    · rw [← heq]
      exact ⟨hle, by simp [hP]⟩
    · exact ⟨hlt.le.trans hle, iff_of_false (hlt.trans_le hle).ne' fun h => hP h.1⟩

end Along

end Machine

end Library
