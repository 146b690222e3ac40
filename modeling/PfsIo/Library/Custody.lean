import PfsIo.Library.Ledger

/-!
# Resources that nobody holds

In a sound ledger, what is alive is held, or belongs to others, or is lost: it is alive, and
nobody holds it. A resource that is stranded is lost at once.

## Main definitions

* `Ledger.Held` — what some holder holds.
* `Ledger.lost` — what is alive and nobody's.
* `Ledger.strand` — a resource becomes alive and is nobody's from the start.

## Main results

* `Ledger.lost_strand`, `Ledger.lost_acquire` — a new resource without a holder, and with one.
* `Ledger.live_eq_iff` — nothing is lost exactly when all that is alive is accounted for.
-/

namespace Library.Ledger

variable {ι ρ : Type*} {l : Ledger ι ρ} {i : ι} {r s : ρ}

/-- Some holder holds the resource. -/
def Held (l : Ledger ι ρ) (r : ρ) : Prop := ∃ i, l.hold i = some r

/-- What is alive and belongs to nobody. -/
def lost (l : Ledger ι ρ) : Set ρ := {r | r ∈ l.live ∧ r ∉ l.foreign ∧ ¬ l.Held r}

/-- The ledger after the resource `r` has come to life without a holder. -/
def strand (l : Ledger ι ρ) (r : ρ) : Ledger ι ρ := { l with live := insert r l.live }

@[simp, grind =] theorem mem_lost :
    r ∈ l.lost ↔ r ∈ l.live ∧ r ∉ l.foreign ∧ ¬ l.Held r := Iff.rfl

theorem Sound.not_held_of_fresh (h : l.Sound) (fresh : r ∉ l.live) : ¬ l.Held r := by
  rintro ⟨i, hi⟩
  exact fresh (h.alive i r hi)

/-- Two ledgers with the same holders. -/
theorem held_congr {m : Ledger ι ρ} (h : m.hold = l.hold) (r : ρ) : m.Held r ↔ l.Held r := by
  rw [Held, Held, h]

/-- What is lost does not depend on the account. -/
theorem lost_congr {m : Ledger ι ρ} (hold : m.hold = l.hold) (live : m.live = l.live)
    (foreign : m.foreign = l.foreign) : m.lost = l.lost := by
  ext r
  rw [mem_lost, mem_lost, held_congr hold, live, foreign]

theorem Sound.strand (h : l.Sound) (r : ρ) : (l.strand r).Sound := by
  refine ⟨?_, h.unique, h.apart, fun s hs => Set.mem_insert_of_mem r (h.foreign hs)⟩
  intro i s hs
  exact Set.mem_insert_of_mem r (h.alive i s hs)

theorem lost_strand (h : l.Sound) (fresh : r ∉ l.live) :
    (l.strand r).lost = insert r l.lost := by
  have hforeign : r ∉ l.foreign := fun hmem => fresh (h.foreign hmem)
  have hheld := h.not_held_of_fresh fresh
  ext s
  show (s = r ∨ s ∈ l.live) ∧ s ∉ l.foreign ∧ ¬ l.Held s ↔ s = r ∨ s ∈ l.lost
  grind

variable [DecidableEq ι]

theorem held_acquire (free : l.hold i = none) : (l.acquire i r).Held s ↔ s = r ∨ l.Held s := by
  constructor
  · rintro ⟨j, hj⟩
    rw [hold_acquire] at hj
    split at hj
    · exact .inl (Option.some.inj hj).symm
    · exact .inr ⟨j, hj⟩
  · rintro (rfl | ⟨j, hj⟩)
    · exact ⟨i, by grind⟩
    · have hne : j ≠ i := by
        rintro rfl
        simp [free] at hj
      exact ⟨j, by grind⟩

/-- What is held after the resource at one place was taken away. -/
theorem held_forget (h : l.Sound) (held : l.hold i = some r) :
    (l.forget i).Held s ↔ l.Held s ∧ s ≠ r := by
  constructor
  · rintro ⟨j, hj⟩
    rw [hold_forget] at hj
    split at hj
    · cases hj
    · next hne =>
      refine ⟨⟨j, hj⟩, ?_⟩
      rintro rfl
      exact hne (h.unique j i s hj held)
  · rintro ⟨⟨j, hj⟩, hne⟩
    have hji : j ≠ i := by
      rintro rfl
      exact hne (Option.some.inj (hj.symm.trans held))
    exact ⟨j, by grind⟩

theorem held_exchange (l : Ledger ι ρ) (i j : ι) (s : ρ) :
    (l.exchange i j).Held s ↔ l.Held s :=
  (Equiv.swap i j).exists_congr_left.trans (by simp [exchange, Held])

theorem lost_acquire (free : l.hold i = none) (fresh : r ∉ l.live) :
    (l.acquire i r).lost = l.lost := by
  have hheld : ∀ s, (l.acquire i r).Held s ↔ s = r ∨ l.Held s := fun s => held_acquire free
  ext s
  show (s = r ∨ s ∈ l.live) ∧ s ∉ l.foreign ∧ ¬ (l.acquire i r).Held s ↔ s ∈ l.lost
  grind

omit [DecidableEq ι] in
theorem lost_appear (fresh : r ∉ l.live) : (l.appear r).lost = l.lost := by
  ext s
  show (s = r ∨ s ∈ l.live) ∧ ¬ (s = r ∨ s ∈ l.foreign) ∧ ¬ l.Held s ↔ s ∈ l.lost
  grind

omit [DecidableEq ι] in
theorem lost_vanish (foreign : r ∈ l.foreign) : (l.vanish r).lost = l.lost := by
  ext s
  show (s ∈ l.live ∧ s ≠ r) ∧ ¬ (s ∈ l.foreign ∧ s ≠ r) ∧ ¬ l.Held s ↔ s ∈ l.lost
  grind

omit [DecidableEq ι] in
/-- Nothing is lost exactly when all that is alive is held, or belongs to others. -/
theorem live_eq_iff (h : l.Sound) : l.live = l.foreign ∪ {r | l.Held r} ↔ l.lost = ∅ := by
  constructor
  · intro heq
    rw [Set.eq_empty_iff_forall_notMem]
    rintro r ⟨hlive, hforeign, hheld⟩
    rw [heq] at hlive
    exact hlive.elim hforeign hheld
  · intro hlost
    ext r
    constructor
    · intro hlive
      by_contra hno
      have hmem : r ∈ l.lost := ⟨hlive, fun hf => hno (.inl hf), fun hh => hno (.inr hh)⟩
      simp [hlost] at hmem
    · rintro (hforeign | ⟨i, hi⟩)
      · exact h.foreign hforeign
      · exact h.alive i r hi

end Library.Ledger
