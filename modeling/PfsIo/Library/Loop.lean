import Mathlib.Data.Option.Basic

/-!
# Loops driven by outcomes

A loop tests a guard, asks its surroundings for an outcome, and lets the body
decide whether to go round again or to leave. The outcomes are a list: a run
consumes one for each iteration and returns what it did not need. A run on a list
that ends too early has no result, so an endless loop is one that has no result
on any prefix of the outcomes.

## Main definitions

* `Loop.run` — run on a list of outcomes.
* `Loop.drive` — run with the outcome of each iteration fixed by its state.
* `Loop.Ends` — the loop ends on an endless sequence of outcomes.

## Main results

* `Loop.run_rule` — the rule for partial correctness.
* `Loop.ends_of_fair` — the rule for termination when progress is possible again and again.
-/

namespace Library

variable {σ ο : Type*}

/-- What one iteration ends with: another test of the guard, or a `break`. -/
inductive Flow (σ : Type*) where
  | next (s : σ)
  | leave (s : σ)

/-- The state that an iteration ends with. -/
def Flow.state : Flow σ → σ
  | .next s | .leave s => s

/-- A `while` loop whose body consumes one outcome for each iteration. -/
structure Loop (σ ο : Type*) where
  guard : σ → Bool
  body : σ → ο → Flow σ

namespace Loop

/-- The final state and the outcomes not consumed; `none` while the loop still runs. -/
def run (l : Loop σ ο) (s : σ) : List ο → Option (σ × List ο)
  | [] => if l.guard s then none else some (s, [])
  | o :: rest =>
    if l.guard s then
      match l.body s o with
      | .next t => run l t rest
      | .leave t => some (t, rest)
    else some (s, o :: rest)

/-- Run with outcomes fixed by the states, for at most `fuel` iterations; the
visited states are returned with the final one. -/
def drive (l : Loop σ ο) (f : σ → ο) : Nat → σ → Option (List σ × σ)
  | 0, s => if l.guard s then none else some ([], s)
  | fuel + 1, s =>
    if l.guard s then
      match l.body s (f s) with
      | .next t => (drive l f fuel t).map fun r => (s :: r.1, r.2)
      | .leave t => some ([s], t)
    else some ([], s)

variable {l : Loop σ ο} {s t : σ} {o : ο} {os rest : List ο}

theorem run_of_not_guard (h : l.guard s = false) : l.run s os = some (s, os) := by
  cases os <;> simp [run, h]

theorem run_cons_next (h : l.guard s = true) (hb : l.body s o = .next t) :
    l.run s (o :: os) = l.run t os := by
  simp [run, h, hb]

theorem run_cons_leave (h : l.guard s = true) (hb : l.body s o = .leave t) :
    l.run s (o :: os) = some (t, os) := by
  simp [run, h, hb]

theorem run_nil_of_guard (h : l.guard s = true) : l.run s [] = none := by
  simp [run, h]

theorem drive_succ_next {f : σ → ο} (h : l.guard s = true) (hb : l.body s (f s) = .next t)
    (fuel : Nat) : l.drive f (fuel + 1) s = (l.drive f fuel t).map fun r => (s :: r.1, r.2) := by
  simp [drive, h, hb]

theorem drive_succ_leave {f : σ → ο} (h : l.guard s = true) (hb : l.body s (f s) = .leave t)
    (fuel : Nat) : l.drive f (fuel + 1) s = some ([s], t) := by
  simp [drive, h, hb]

theorem drive_of_not_guard {f : σ → ο} (h : l.guard s = false) (fuel : Nat) :
    l.drive f fuel s = some ([], s) := by
  cases fuel <;> simp [drive, h]

/-- The rule for partial correctness: an invariant of the loop, kept by every
iteration that goes round again, gives the postcondition at both ways out. -/
theorem run_rule (inv post : σ → Prop)
    (next : ∀ s o t, inv s → l.guard s = true → l.body s o = .next t → inv t)
    (leave : ∀ s o t, inv s → l.guard s = true → l.body s o = .leave t → post t)
    (done : ∀ s, inv s → l.guard s = false → post s)
    (hs : inv s) (h : l.run s os = some (t, rest)) : post t := by
  induction os generalizing s with
  | nil =>
    cases hg : l.guard s with
    | true => simp [run_nil_of_guard hg] at h
    | false =>
      rw [run_of_not_guard hg] at h
      obtain ⟨rfl, rfl⟩ := Prod.mk.inj (Option.some.inj h)
      exact done _ hs hg
  | cons o os ih =>
    cases hg : l.guard s with
    | false =>
      rw [run_of_not_guard hg] at h
      obtain ⟨rfl, rfl⟩ := Prod.mk.inj (Option.some.inj h)
      exact done _ hs hg
    | true =>
      cases hb : l.body s o with
      | next u =>
        rw [run_cons_next hg hb] at h
        exact ih (next s o u hs hg hb) h
      | leave u =>
        rw [run_cons_leave hg hb] at h
        obtain ⟨rfl, rfl⟩ := Prod.mk.inj (Option.some.inj h)
        exact leave s o _ hs hg hb

/-- A driven run is a run on the outcomes that its visited states fix. -/
theorem run_of_drive {f : σ → ο} {fuel : Nat} {states : List σ}
    (h : l.drive f fuel s = some (states, t)) : l.run s (states.map f) = some (t, []) := by
  induction fuel generalizing s states with
  | zero =>
    cases hg : l.guard s with
    | true => simp [drive, hg] at h
    | false =>
      rw [drive_of_not_guard hg] at h
      obtain ⟨rfl, rfl⟩ := Prod.mk.inj (Option.some.inj h)
      exact run_of_not_guard hg
  | succ fuel ih =>
    cases hg : l.guard s with
    | false =>
      rw [drive_of_not_guard hg] at h
      obtain ⟨rfl, rfl⟩ := Prod.mk.inj (Option.some.inj h)
      exact run_of_not_guard hg
    | true =>
      cases hb : l.body s (f s) with
      | leave u =>
        rw [drive_succ_leave hg hb] at h
        obtain ⟨rfl, rfl⟩ := Prod.mk.inj (Option.some.inj h)
        exact run_cons_leave hg hb
      | next u =>
        rw [drive_succ_next hg hb] at h
        obtain ⟨⟨states', t'⟩, hu, hr⟩ := Option.map_eq_some_iff.mp h
        obtain ⟨rfl, rfl⟩ := Prod.mk.inj hr
        rw [List.map_cons, run_cons_next hg hb]
        exact ih hu

/-- More iterations than needed change nothing. -/
theorem drive_add {f : σ → ο} {fuel : Nat} {r : List σ × σ} (h : l.drive f fuel s = some r)
    (more : Nat) : l.drive f (fuel + more) s = some r := by
  induction fuel generalizing s r with
  | zero =>
    cases hg : l.guard s with
    | true => simp [drive, hg] at h
    | false => rwa [drive_of_not_guard hg] at h ⊢
  | succ fuel ih =>
    cases hg : l.guard s with
    | false => rwa [drive_of_not_guard hg] at h ⊢
    | true =>
      rw [Nat.add_right_comm]
      cases hb : l.body s (f s) with
      | leave u => rwa [drive_succ_leave hg hb] at h ⊢
      | next u =>
        rw [drive_succ_next hg hb] at h ⊢
        obtain ⟨r', hu, rfl⟩ := Option.map_eq_some_iff.mp h
        rw [ih hu, Option.map_some]

/-- A driven run has one result. -/
theorem drive_unique {f : σ → ο} {fuel fuel' : Nat} {r r' : List σ × σ}
    (h : l.drive f fuel s = some r) (h' : l.drive f fuel' s = some r') : r = r' := by
  have hmax := drive_add h fuel'
  rw [Nat.add_comm, drive_add h' fuel] at hmax
  exact (Option.some.inj hmax).symm

/-- A loop that comes back to a state it has left, with outcomes fixed by the
states, never ends. -/
theorem drive_eq_none_of_fixed {f : σ → ο} (fixed : σ → Prop) (hs : fixed s)
    (guard : ∀ s, fixed s → l.guard s = true)
    (next : ∀ s, fixed s → ∃ t, l.body s (f s) = .next t ∧ fixed t) (fuel : Nat) :
    l.drive f fuel s = none := by
  induction fuel generalizing s with
  | zero => simp [drive, guard s hs]
  | succ fuel ih =>
    obtain ⟨t, hb, ht⟩ := next s hs
    rw [drive_succ_next (guard s hs) hb, ih ht, Option.map_none]

/-- The loop ends on an endless sequence of outcomes: on one of its first parts. -/
def Ends (l : Loop σ ο) (s : σ) (outcomes : Nat → ο) : Prop :=
  ∃ m, (l.run s ((List.range m).map outcomes)).isSome

theorem firstOutcomes_succ (outcomes : Nat → ο) (m : Nat) :
    (List.range (m + 1)).map outcomes =
      outcomes 0 :: (List.range m).map fun i => outcomes (i + 1) := by
  simp [List.range_succ_eq_map, Function.comp_def]

theorem mem_firstOutcomes {outcomes : Nat → ο} {m : Nat} :
    o ∈ (List.range m).map outcomes ↔ ∃ i < m, outcomes i = o := by
  simp

/-- A loop that cannot leave a set of states on any outcome never ends. -/
theorem not_ends_of_fixed {outcomes : Nat → ο} (fixed : σ → Prop) (hs : fixed s)
    (guard : ∀ s, fixed s → l.guard s = true)
    (next : ∀ s o, fixed s → ∃ t, l.body s o = .next t ∧ fixed t) : ¬ l.Ends s outcomes := by
  have hnone : ∀ os, l.run s os = none := by
    intro os
    induction os generalizing s with
    | nil => exact run_nil_of_guard (guard s hs)
    | cons o os ih =>
      obtain ⟨t, hb, ht⟩ := next s o hs
      rw [run_cons_next (guard s hs) hb, ih ht]
  rintro ⟨m, hm⟩
  simp [hnone] at hm

theorem ends_of_not_guard (h : l.guard s = false) (outcomes : Nat → ο) : l.Ends s outcomes :=
  ⟨0, by simp [run_of_not_guard h]⟩

theorem ends_of_leave {outcomes : Nat → ο} (h : l.guard s = true)
    (hb : l.body s (outcomes 0) = .leave t) : l.Ends s outcomes := by
  refine ⟨1, ?_⟩
  rw [firstOutcomes_succ, run_cons_leave h hb, Option.isSome_some]

theorem ends_of_next {outcomes : Nat → ο} (h : l.guard s = true)
    (hb : l.body s (outcomes 0) = .next t) (ht : l.Ends t fun i => outcomes (i + 1)) :
    l.Ends s outcomes := by
  obtain ⟨m, hm⟩ := ht
  refine ⟨m + 1, ?_⟩
  rwa [firstOutcomes_succ, run_cons_next h hb]

/-- The rule for termination under fairness: a measure that no iteration increases, and
that the outcomes of one kind decrease, ends the loop on every sequence in which outcomes
of that kind come again and again. -/
theorem ends_of_fair (μ : σ → Nat) (progress : ο → Prop) (inv : σ → Prop)
    (next : ∀ s o t, inv s → l.guard s = true → l.body s o = .next t →
      inv t ∧ μ t ≤ μ s ∧ (progress o → μ t < μ s))
    {outcomes : Nat → ο} (fair : ∀ i, ∃ j, progress (outcomes (i + j))) (hs : inv s) :
    l.Ends s outcomes := by
  induction hm : μ s using Nat.strongRecOn generalizing s outcomes with
  | ind m ih =>
    have fair' : ∀ i, ∃ j, progress (outcomes (i + j + 1)) := by
      intro i
      obtain ⟨j, hj⟩ := fair (i + 1)
      exact ⟨j, by rwa [Nat.add_right_comm] at hj⟩
    obtain ⟨j, hj⟩ := fair 0
    rw [Nat.zero_add] at hj
    -- the induction goes over the outcomes before the next progress
    induction j generalizing s outcomes with
    | zero =>
      cases hg : l.guard s with
      | false => exact ends_of_not_guard hg outcomes
      | true =>
        cases hb : l.body s (outcomes 0) with
        | leave t => exact ends_of_leave hg hb
        | next t =>
          obtain ⟨ht, -, hlt⟩ := next s _ t hs hg hb
          exact ends_of_next hg hb (ih _ (hm ▸ hlt hj) fair' ht rfl)
    | succ j ihj =>
      cases hg : l.guard s with
      | false => exact ends_of_not_guard hg outcomes
      | true =>
        cases hb : l.body s (outcomes 0) with
        | leave t => exact ends_of_leave hg hb
        | next t =>
          obtain ⟨ht, hle, -⟩ := next s _ t hs hg hb
          refine ends_of_next hg hb ?_
          by_cases heq : μ t = m
          · refine ihj fair' ht heq ?_ hj
            intro i
            obtain ⟨k, hk⟩ := fair' (i + 1)
            exact ⟨k, by rwa [Nat.add_right_comm i 1 k] at hk⟩
          · exact ih _ (by omega) fair' ht rfl

end Loop

end Library
