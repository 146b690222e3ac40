import PfsIo.Library.Machine

/-!
# Simulation of one machine by another

A step of one machine is matched by a run of the other, of any length, whose actions are all of an
allowed kind. What the steps keep the runs keep.

## Main definitions

* `Machine.Reaches` — a state is reached by allowed actions.
* `Machine.Simulates` — each step is matched.

## Main results

* `Machine.Simulates.run` — each run is matched.
-/

namespace Library.Machine

variable {σ τ α β : Type*} {first : Machine σ α} {second : Machine τ β} {allowed : β → Prop}

/-- Allowed actions lead from one state to the other. -/
def Reaches (second : Machine τ β) (allowed : β → Prop) (t t' : τ) : Prop :=
  ∃ actions, (∀ b ∈ actions, allowed b) ∧ run second t actions = some t'

theorem Reaches.refl (t : τ) : Reaches second allowed t t :=
  ⟨[], by simp, rfl⟩

theorem Reaches.single {t t' : τ} {b : β} (h : second t b = some t') (hb : allowed b) :
    Reaches second allowed t t' :=
  ⟨[b], by simpa using hb, by simp [h]⟩

theorem Reaches.trans {t t' t'' : τ} (h : Reaches second allowed t t')
    (h' : Reaches second allowed t' t'') : Reaches second allowed t t'' := by
  obtain ⟨actions, hallowed, hrun⟩ := h
  obtain ⟨more, hallowed', hrun'⟩ := h'
  refine ⟨actions ++ more, fun b hb => ?_, ?_⟩
  · rcases List.mem_append.mp hb with hb | hb
    · exact hallowed b hb
    · exact hallowed' b hb
  · rw [run_append, hrun, Option.bind_some, hrun']

/-- From related states, each step of the first machine is matched by allowed actions of the
second. -/
def Simulates (first : Machine σ α) (second : Machine τ β) (allowed : β → Prop)
    (rel : σ → τ → Prop) : Prop :=
  ∀ s t a s', rel s t → first s a = some s' → ∃ t', Reaches second allowed t t' ∧ rel s' t'

/-- By induction on the run, which is matched step by step. -/
theorem Simulates.run {rel : σ → τ → Prop} (h : Simulates first second allowed rel) {s s' : σ}
    {t : τ} (hrel : rel s t) {actions : List α} (hrun : Machine.run first s actions = some s') :
    ∃ t', Reaches second allowed t t' ∧ rel s' t' := by
  induction actions generalizing s t with
  | nil =>
    obtain rfl := Option.some.inj hrun
    exact ⟨t, .refl t, hrel⟩
  | cons a rest ih =>
    obtain ⟨u, hu, hrest⟩ := run_cons_eq_some.mp hrun
    obtain ⟨v, hv, hrel⟩ := h s t a u hrel hu
    obtain ⟨t', ht', hend⟩ := ih hrel hrest
    exact ⟨t', hv.trans ht', hend⟩

end Library.Machine
