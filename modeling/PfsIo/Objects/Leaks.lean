import PfsIo.Objects.Ownership

/-!
# Leaked descriptors

`opened` takes every non-negative descriptor for an open one, and the close functions
every positive one: an object that holds descriptor 0 is opened, and closing or destroying
it does not close the descriptor.

## Main results

* `World.closedSince_close` — which closes of opened objects call `::close`.
* `World.run_released_iff` — when a program releases every descriptor it was given.
-/

namespace PfsIo

open Library

namespace World

variable {plat : Platform} {w w' : World} {p : Place} {o : Obj} {r r' : CloseReplies}

theorem not_closedSince_of_log_eq {os os' : Os} (h : os'.log = os.log) (fd : Int) :
    ¬ ClosedSince os os' fd := by
  rintro ⟨wasOpen, rc, hmem⟩
  simp [callsSince, h] at hmem

theorem closedSince_close (ho : w.objs p = some o) (hopened : o.opened = true)
    (h : w.close plat p r = some w') : ClosedSince w.os w'.os o.h.fd ↔ o.h.fd ≠ 0 := by
  obtain ⟨o', ho', rfl⟩ := close_eq_some h
  obtain rfl := Option.some.inj (ho.symm.trans ho')
  have hnonneg : 0 ≤ o.h.fd := by simpa [Obj.opened, File.opened] using hopened
  obtain ⟨-, hreleased, hkept⟩ := Obj.closeOf_closes o.kind plat o.h w.os r
  by_cases hzero : o.h.fd = 0
  · refine iff_of_false ?_ (not_not_intro hzero)
    exact not_closedSince_of_log_eq (congrArg Os.log (hkept (by omega))) _
  · obtain ⟨os', hprep, hos⟩ := hreleased (by omega)
    refine iff_of_true ⟨decide (o.h.fd ∈ os'.opened), (os'.close o.h.fd r.close).rc, ?_⟩ hzero
    simp only [hos, callsSince, Os.log_close]
    rcases hprep.log with hlog | ⟨call, -, hlog⟩ <;> simp [hlog]

theorem closedSince_destroy (ho : w.objs p = some o) (hopened : o.opened = true)
    (h : w.destroy plat p r = some w') : ClosedSince w.os w'.os o.h.fd ↔ o.h.fd ≠ 0 := by
  obtain ⟨u, hu, rfl⟩ := destroy_eq_some h
  have hclosed := closedSince_close ho hopened hu
  exact hclosed

/-- Closing a second time does nothing. -/
theorem os_destroy_of_close {u : World} (hu : w.close plat p r = some u)
    (h : u.destroy plat p r' = some w') : w'.os = u.os := by
  obtain ⟨o, ho, hhandle⟩ := objs_close hu
  obtain ⟨v, hv, rfl⟩ := destroy_eq_some h
  obtain ⟨o', ho', rfl⟩ := close_eq_some hv
  obtain rfl := Option.some.inj (ho.symm.trans ho')
  exact (Obj.closeOf_closes o.kind plat o.h u.os r').kept (by simp [hhandle])

theorem closedSince_dropDevice (ho : w.objs p = some o) (hopened : o.opened = true)
    (h : w.dropDevice plat p r r' = some w') : ClosedSince w.os w'.os o.h.fd ↔ o.h.fd ≠ 0 := by
  simp only [dropDevice, ho, hopened, if_true] at h
  obtain ⟨u, hu, h⟩ := Option.bind_eq_some_iff.mp h
  rw [os_destroy_of_close hu h]
  exact closedSince_close ho hopened hu

theorem outstanding_held (h : Owned w) (hzero : .given 0 ∉ w.os.log) {fd : Int}
    (hfd : fd ∈ outstanding w.os.log) : ∃ p o, w.objs p = some o ∧ o.h.fd = fd := by
  have hsafe : ∀ r ∈ w.ledger.given, r ∉ ({0} : Set Int) := by
    intro r hr hr0
    obtain rfl : r = 0 := hr0
    exact hzero hr
  obtain ⟨p, hp⟩ := h.balanced.held_of_disjoint hsafe hfd
  obtain ⟨o, ho, -, hofd⟩ := heldBy_eq_some.mp hp
  exact ⟨p, o, ho, hofd⟩

theorem outstanding_eq_empty_iff (h : Owned w) (hnone : ∀ p, w.objs p = none) :
    outstanding w.os.log = ∅ ↔ .given 0 ∉ w.os.log := by
  have howed := h.balanced.owed_eq fun p => by simp [ledger, hnone p, heldBy]
  constructor
  · intro hempty hzero
    have hmem : (0 : Int) ∈ w.ledger.owed := howed ▸ ⟨hzero, rfl⟩
    simp [ledger, hempty] at hmem
  · intro hzero
    apply Finset.eq_empty_of_forall_notMem
    intro fd hfd
    obtain ⟨p, o, ho, -⟩ := outstanding_held h hzero hfd
    simp [hnone p] at ho

/-- Closing or destroying an opened object, also within a step, closes its descriptor exactly
when that is not 0. In every state that a program reaches: if no object was given descriptor
0, no opened object holds it, and every descriptor given and not yet closed is held by a live
object; and when all objects are destroyed, all descriptors are closed exactly in that case. -/
theorem run_released_iff (plat : Platform) (opened : Finset Int) (errno : Nat)
    (actions : List Action) (w : World)
    (hrun : Machine.run (step plat) (start opened errno) actions = some w) :
    (∀ (u u' : World) (p : Place) (o : Obj) (r r' : CloseReplies),
      u.objs p = some o → o.opened = true →
      u.close plat p r = some u' ∨ u.destroy plat p r = some u' ∨
        u.dropDevice plat p r r' = some u' →
      (ClosedSince u.os u'.os o.h.fd ↔ o.h.fd ≠ 0)) ∧
    (.given 0 ∉ w.os.log → ∀ p o, w.objs p = some o → o.opened = true → o.h.fd ≠ 0) ∧
    (.given 0 ∉ w.os.log → ∀ fd ∈ outstanding w.os.log, ∃ p o, w.objs p = some o ∧ o.h.fd = fd) ∧
    ((∀ p, w.objs p = none) → (outstanding w.os.log = ∅ ↔ .given 0 ∉ w.os.log)) := by
  have h := Owned.run hrun
  refine ⟨?_, ?_, fun hzero fd hfd => outstanding_held h hzero hfd, outstanding_eq_empty_iff h⟩
  · intro u u' p o r r' ho hopened hu
    rcases hu with hu | hu | hu
    · exact closedSince_close ho hopened hu
    · exact closedSince_destroy ho hopened hu
    · exact closedSince_dropDevice ho hopened hu
  · intro hzero p o ho hopened hfd
    have hheld := hold_of_nonneg ho (by omega : 0 ≤ o.h.fd)
    exact hzero (hfd ▸ h.balanced.granted p _ hheld)

/-- A socket on descriptor 7 is moved and destroyed. -/
def moved : List Action :=
  [.construct 0 .tcpSocket (.prefer 7) .zero, .moveConstruct 1 .tcpSocket (.var 0), .destroy 1 {}]

theorem run_released_moved :
    ∃ w, Machine.run (step .linux) (start ∅ 0) moved = some w ∧
      (.given 0 ∉ w.os.log →
        ∀ fd ∈ outstanding w.os.log, ∃ p o, w.objs p = some o ∧ o.h.fd = fd) :=
  ⟨_, rfl, (run_released_iff .linux ∅ 0 moved _ rfl).2.2.1⟩

/-- An object on descriptor 0 is destroyed: it was opened, no `::close` was called, and the
descriptor stays open for ever. -/
def LeaksZero (kind : Kind) : Prop :=
  ∃ w w', Machine.run (step .linux) (start ∅ 0) [.construct 0 kind (.prefer 0) .zero] = some w ∧
    (w.objs (.var 0)).map Obj.opened = some true ∧
    step .linux w (.destroy 0 {}) = some w' ∧ (∀ p, w'.objs p = none) ∧
    ¬ ClosedSince w.os w'.os 0 ∧ outstanding w'.os.log = {0} ∧ w'.os.opened = {0}

theorem not_released_zero : LeaksZero .file ∧ LeaksZero .tcpSocket ∧ LeaksZero .localServer := by
  refine ⟨?_, ?_, ?_⟩
  all_goals
    refine ⟨_, _, rfl, rfl, rfl, fun p => ?_, ?_, rfl, rfl⟩
    · by_cases hp : p = .var 0 <;> simp [put, construct, start, hp]
    · exact not_closedSince_of_log_eq rfl 0

end World

end PfsIo
