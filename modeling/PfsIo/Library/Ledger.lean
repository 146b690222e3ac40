import Mathlib.Data.Set.Insert
import Mathlib.Logic.Equiv.Basic
import Mathlib.Logic.Relation

/-!
# Ledgers of exclusively held resources

Holders (the places where a handle can be stored) hold at most one resource each.
Resources are acquired fresh, change places, and are given up. Giving up a resource
releases it, except for the resources of a set `forgotten`: those are merely forgotten
and stay alive without a holder. Others hold resources too, which they acquire and
release outside of the ledger.

`Sound` says that no resource has two holders and that every held one is alive.
`Balanced` says that every resource acquired and not yet released is still held,
unless it is one of the forgotten ones.

## Main definitions

* `Ledger` — who holds what, what is alive, and the account of what was acquired.
* `Ledger.Step` — the transitions.
* `Ledger.Sound`, `Ledger.Balanced` — the two invariants.
-/

namespace Library

variable {ι ρ : Type*}

@[ext] structure Ledger (ι ρ : Type*) where
  /-- The resource at each place. -/
  hold : ι → Option ρ
  /-- The resources that are alive. -/
  live : Set ρ
  /-- The resources acquired and not yet released. -/
  owed : Set ρ
  /-- The resources ever acquired. -/
  given : Set ρ
  /-- The resources that others hold. -/
  foreign : Set ρ

namespace Ledger

variable [DecidableEq ι]

/-- The ledger after the resource `r` was put at the free place `i`. -/
def acquire (l : Ledger ι ρ) (i : ι) (r : ρ) : Ledger ι ρ :=
  { l with
    hold := Function.update l.hold i (some r)
    live := insert r l.live
    owed := insert r l.owed
    given := insert r l.given }

/-- The ledger after the resource `r` at place `i` was released. -/
def release (l : Ledger ι ρ) (i : ι) (r : ρ) : Ledger ι ρ :=
  { l with
    hold := Function.update l.hold i none
    live := l.live \ {r}
    owed := l.owed \ {r} }

/-- The ledger after the resource at place `i` was forgotten. -/
def forget (l : Ledger ι ρ) (i : ι) : Ledger ι ρ :=
  { l with hold := Function.update l.hold i none }

/-- The ledger after the contents of two places were exchanged. -/
def exchange (l : Ledger ι ρ) (i j : ι) : Ledger ι ρ :=
  { l with hold := l.hold ∘ Equiv.swap i j }

omit [DecidableEq ι] in
/-- The ledger after someone else has acquired the resource `r`. -/
def appear (l : Ledger ι ρ) (r : ρ) : Ledger ι ρ :=
  { l with live := insert r l.live, foreign := insert r l.foreign }

omit [DecidableEq ι] in
/-- The ledger after someone else has released the resource `r`. -/
def vanish (l : Ledger ι ρ) (r : ρ) : Ledger ι ρ :=
  { l with live := l.live \ {r}, foreign := l.foreign \ {r} }

@[grind =] theorem hold_acquire (l : Ledger ι ρ) (i j : ι) (r : ρ) :
    (l.acquire i r).hold j = if j = i then some r else l.hold j :=
  Function.update_apply _ _ _ _

@[grind =] theorem hold_release (l : Ledger ι ρ) (i j : ι) (r : ρ) :
    (l.release i r).hold j = if j = i then none else l.hold j :=
  Function.update_apply _ _ _ _

@[grind =] theorem hold_forget (l : Ledger ι ρ) (i j : ι) :
    (l.forget i).hold j = if j = i then none else l.hold j :=
  Function.update_apply _ _ _ _

inductive Step (forgotten : Set ρ) : Ledger ι ρ → Ledger ι ρ → Prop where
  | acquire (l : Ledger ι ρ) (i : ι) (r : ρ) : l.hold i = none → r ∉ l.live →
      Step forgotten l (l.acquire i r)
  | release (l : Ledger ι ρ) (i : ι) (r : ρ) : l.hold i = some r → r ∉ forgotten →
      Step forgotten l (l.release i r)
  | forget (l : Ledger ι ρ) (i : ι) (r : ρ) : l.hold i = some r → r ∈ forgotten →
      Step forgotten l (l.forget i)
  | exchange (l : Ledger ι ρ) (i j : ι) : Step forgotten l (l.exchange i j)
  | appear (l : Ledger ι ρ) (r : ρ) : r ∉ l.live → Step forgotten l (l.appear r)
  | vanish (l : Ledger ι ρ) (r : ρ) : r ∈ l.foreign → Step forgotten l (l.vanish r)

/-- The reflexive transitive closure of `Step`. -/
abbrev Steps (forgotten : Set ρ) : Ledger ι ρ → Ledger ι ρ → Prop :=
  Relation.ReflTransGen (Step forgotten)

omit [DecidableEq ι] in
/-- Exclusive holding: held resources are alive, none is held twice, and none of those
that others hold. -/
structure Sound (l : Ledger ι ρ) : Prop where
  alive : ∀ i r, l.hold i = some r → r ∈ l.live
  unique : ∀ i j r, l.hold i = some r → l.hold j = some r → i = j
  apart : ∀ i r, l.hold i = some r → r ∉ l.foreign
  foreign : l.foreign ⊆ l.live

omit [DecidableEq ι] in
/-- Every resource owed is held or forgotten, the forgotten ones stay owed, and what is
held was given. -/
structure Balanced (forgotten : Set ρ) (l : Ledger ι ρ) : Prop where
  granted : ∀ i r, l.hold i = some r → r ∈ l.given
  held : ∀ r ∈ l.owed, r ∈ forgotten ∨ ∃ i, l.hold i = some r
  acquired : ∀ r ∈ l.owed, r ∈ l.given
  kept : ∀ r ∈ l.given, r ∈ forgotten → r ∈ l.owed

omit [DecidableEq ι] in
theorem Sound.congr {l m : Ledger ι ρ} (h : l.Sound) (hold : m.hold = l.hold)
    (live : m.live = l.live) (foreign : m.foreign = l.foreign) : m.Sound := by
  obtain ⟨alive, unique, apart, outside⟩ := h
  refine ⟨?_, ?_, ?_, ?_⟩
  · rwa [hold, live]
  · rwa [hold]
  · rwa [hold, foreign]
  · rwa [foreign, live]

theorem Sound.acquire {l : Ledger ι ρ} (h : l.Sound) {i : ι} {r : ρ} (fresh : r ∉ l.live) :
    (l.acquire i r).Sound := by
  obtain ⟨alive, unique, apart, foreign⟩ := h
  have cases : ∀ j s, (l.acquire i r).hold j = some s → (j = i ∧ s = r) ∨ l.hold j = some s := by
    grind
  refine ⟨?_, ?_, ?_, ?_⟩
  · intro j s hj
    rcases cases j s hj with ⟨-, rfl⟩ | hj
    · exact Set.mem_insert _ _
    · exact Set.mem_insert_of_mem _ (alive j s hj)
  · intro j k s hj hk
    rcases cases j s hj with ⟨rfl, rfl⟩ | hj' <;> rcases cases k _ hk with ⟨rfl, hs⟩ | hk'
    · rfl
    · exact absurd (alive k _ hk') fresh
    · exact absurd (alive j _ (hs ▸ hj')) fresh
    · exact unique j k s hj' hk'
  · intro j s hj
    rcases cases j s hj with ⟨-, rfl⟩ | hj
    · intro hs
      exact fresh (foreign hs)
    · exact apart j s hj
  · intro s hs
    exact Set.mem_insert_of_mem _ (foreign hs)

theorem Sound.release {l : Ledger ι ρ} (h : l.Sound) {i : ι} {r : ρ} (held : l.hold i = some r) :
    (l.release i r).Sound := by
  obtain ⟨alive, unique, apart, foreign⟩ := h
  have cases : ∀ j s, (l.release i r).hold j = some s → j ≠ i ∧ l.hold j = some s := by
    grind
  refine ⟨?_, ?_, ?_, ?_⟩
  · intro j s hj
    obtain ⟨hne, hj'⟩ := cases j s hj
    refine ⟨alive j s hj', ?_⟩
    rintro rfl
    exact hne (unique j i _ hj' held)
  · intro j k s hj hk
    exact unique j k s (cases j s hj).2 (cases k s hk).2
  · intro j s hj
    exact apart j s (cases j s hj).2
  · intro s hs
    refine ⟨foreign hs, ?_⟩
    rintro rfl
    exact apart i _ held hs

theorem Sound.forget {l : Ledger ι ρ} (h : l.Sound) (i : ι) : (l.forget i).Sound := by
  obtain ⟨alive, unique, apart, foreign⟩ := h
  have cases : ∀ j s, (l.forget i).hold j = some s → l.hold j = some s := by
    grind
  refine ⟨?_, ?_, ?_, foreign⟩
  · intro j s hj
    exact alive j s (cases j s hj)
  · intro j k s hj hk
    exact unique j k s (cases j s hj) (cases k s hk)
  · intro j s hj
    exact apart j s (cases j s hj)

theorem Balanced.acquire {forgotten : Set ρ} {l : Ledger ι ρ} (h : l.Balanced forgotten) {i : ι}
    (free : l.hold i = none) (r : ρ) : (l.acquire i r).Balanced forgotten := by
  obtain ⟨granted, held, acquired, kept⟩ := h
  refine ⟨?_, ?_, Set.insert_subset_insert acquired, ?_⟩
  · intro j s hj
    rw [hold_acquire] at hj
    split at hj
    · exact .inl (Option.some.inj hj).symm
    · exact .inr (granted j s hj)
  · intro s hs
    rcases hs with rfl | hs
    · exact .inr ⟨i, by grind⟩
    · refine (held s hs).imp_right fun ⟨j, hj⟩ => ⟨j, ?_⟩
      grind
  · intro s hs hf
    rcases hs with rfl | hs
    · exact Set.mem_insert _ _
    · exact Set.mem_insert_of_mem _ (kept s hs hf)

theorem Balanced.release {forgotten : Set ρ} {l : Ledger ι ρ} (h : l.Balanced forgotten) {i : ι}
    {r : ρ} (hold : l.hold i = some r) (safe : r ∉ forgotten) :
    (l.release i r).Balanced forgotten := by
  obtain ⟨granted, held, acquired, kept⟩ := h
  refine ⟨?_, ?_, fun s hs => acquired s hs.1, ?_⟩
  · intro j s hj
    rw [hold_release] at hj
    split at hj
    · cases hj
    · exact granted j s hj
  · rintro s ⟨hs, hne⟩
    refine (held s hs).imp_right fun ⟨j, hj⟩ => ⟨j, ?_⟩
    have hji : j ≠ i := by
      rintro rfl
      exact hne (Option.some.inj (hj.symm.trans hold))
    grind
  · intro s hs hf
    refine ⟨kept s hs hf, ?_⟩
    rintro rfl
    exact safe hf

theorem Balanced.forget {forgotten : Set ρ} {l : Ledger ι ρ} (h : l.Balanced forgotten) {i : ι}
    {r : ρ} (hold : l.hold i = some r) (lost : r ∈ forgotten) :
    (l.forget i).Balanced forgotten := by
  obtain ⟨granted, held, acquired, kept⟩ := h
  refine ⟨?_, ?_, acquired, kept⟩
  · intro j s hj
    rw [hold_forget] at hj
    split at hj
    · cases hj
    · exact granted j s hj
  · intro s hs
    rcases held s hs with hf | ⟨j, hj⟩
    · exact .inl hf
    · by_cases hji : j = i
      · subst hji
        exact .inl (Option.some.inj (hj.symm.trans hold) ▸ lost)
      · exact .inr ⟨j, by grind⟩

theorem Step.sound {forgotten : Set ρ} {l m : Ledger ι ρ} (h : Step forgotten l m)
    (hl : l.Sound) : m.Sound := by
  cases h with
  | acquire i r _ fresh => exact hl.acquire fresh
  | release i r held _ => exact hl.release held
  | forget i r _ _ => exact hl.forget i
  | exchange i j =>
    refine ⟨fun k s => hl.alive _ s, ?_, fun k s => hl.apart _ s, hl.foreign⟩
    intro k k' s hk hk'
    exact (Equiv.swap i j).injective (hl.unique _ _ s hk hk')
  | appear r fresh =>
    refine ⟨?_, hl.unique, ?_, Set.insert_subset_insert hl.foreign⟩
    · intro i s hs
      exact Set.mem_insert_of_mem _ (hl.alive i s hs)
    · intro i s hs hmem
      rcases hmem with rfl | hmem
      · exact fresh (hl.alive i _ hs)
      · exact hl.apart i s hs hmem
  | vanish r foreign =>
    refine ⟨?_, hl.unique, ?_, fun s hs => ⟨hl.foreign hs.1, hs.2⟩⟩
    · intro i s hs
      refine ⟨hl.alive i s hs, ?_⟩
      rintro rfl
      exact hl.apart i _ hs foreign
    · intro i s hs hmem
      exact hl.apart i s hs hmem.1

theorem Step.balanced {forgotten : Set ρ} {l m : Ledger ι ρ} (h : Step forgotten l m)
    (hl : l.Balanced forgotten) : m.Balanced forgotten := by
  cases h with
  | acquire i r free _ => exact hl.acquire free r
  | release i r hold safe => exact hl.release hold safe
  | forget i r hold lost => exact hl.forget hold lost
  | exchange i j =>
    refine ⟨fun k s => hl.granted _ s, ?_, hl.acquired, hl.kept⟩
    intro s hs
    refine (hl.held s hs).imp_right fun ⟨k, hk⟩ => ⟨Equiv.swap i j k, ?_⟩
    simpa [Ledger.exchange] using hk
  | appear r _ => exact ⟨hl.granted, hl.held, hl.acquired, hl.kept⟩
  | vanish r _ => exact ⟨hl.granted, hl.held, hl.acquired, hl.kept⟩

theorem Steps.sound {forgotten : Set ρ} {l m : Ledger ι ρ} (h : Steps forgotten l m)
    (hl : l.Sound) : m.Sound := by
  induction h with
  | refl => exact hl
  | tail _ step ih => exact step.sound ih

theorem Steps.balanced {forgotten : Set ρ} {l m : Ledger ι ρ} (h : Steps forgotten l m)
    (hl : l.Balanced forgotten) : m.Balanced forgotten := by
  induction h with
  | refl => exact hl
  | tail _ step ih => exact step.balanced ih

omit [DecidableEq ι] in
/-- When nothing is held any more, what is owed are the forgotten resources given. -/
theorem Balanced.owed_eq {forgotten : Set ρ} {l : Ledger ι ρ} (h : l.Balanced forgotten)
    (empty : ∀ i, l.hold i = none) : l.owed = l.given ∩ forgotten := by
  ext r
  constructor
  · intro hr
    refine ⟨h.acquired r hr, (h.held r hr).resolve_right ?_⟩
    rintro ⟨i, hi⟩
    simp [empty i] at hi
  · rintro ⟨hg, hf⟩
    exact h.kept r hg hf

omit [DecidableEq ι] in
/-- When no resource given is of the forgotten kind, everything owed is held. -/
theorem Balanced.held_of_disjoint {forgotten : Set ρ} {l : Ledger ι ρ}
    (h : l.Balanced forgotten) (safe : ∀ r ∈ l.given, r ∉ forgotten) {r : ρ} (hr : r ∈ l.owed) :
    ∃ i, l.hold i = some r :=
  (h.held r hr).resolve_left (safe r (h.acquired r hr))

end Ledger

end Library
