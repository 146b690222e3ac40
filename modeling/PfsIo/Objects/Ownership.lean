import PfsIo.Library.Ledger
import PfsIo.Objects.Pieces

/-!
# Exclusive ownership of descriptors

Programs over objects refine a ledger whose holders are the places and whose resources
are the descriptors. The close functions do not release descriptor 0, so it is the one
resource that the ledger may forget.

## Main results

* `World.piece_refines`, `World.step_refines` — every piece, and so every step of a program,
  is made of ledger steps.
* `World.run_owned` — no descriptor has two owners, and none is closed that is not open.
-/

namespace PfsIo

open Library

namespace World

/-- The descriptor that an object holds, if it is open. -/
def heldBy (o : Option Obj) : Option Int :=
  o.bind fun o => if 0 ≤ o.h.fd then some o.h.fd else none

/-- The ledger of a program: who holds which descriptor, and the account of those given. -/
def ledger (w : World) : Ledger Place Int where
  hold p := heldBy (w.objs p)
  live := w.os.opened
  owed := outstanding w.os.log
  given := {fd | .given fd ∈ w.os.log}
  foreign := w.foreign

/-- Every logged `::close` was on a descriptor that was open. -/
def ClosesOpen (w : World) : Prop :=
  ∀ fd wasOpen rc, .close fd wasOpen rc ∈ w.os.log → wasOpen = true

/-- Ledger steps that may forget descriptor 0, and no close of a
descriptor that is not open. -/
structure Refines (w w' : World) : Prop where
  steps : Ledger.Steps {0} w.ledger w'.ledger
  closes : w.ledger.Sound → w.ClosesOpen → w'.ClosesOpen

variable {plat : Platform} {w w' w'' : World} {p q : Place} {r r' : CloseReplies}

theorem Refines.refl (w : World) : Refines w w := ⟨.refl, fun _ h => h⟩

theorem Refines.trans (h : Refines w w') (h' : Refines w' w'') : Refines w w'' :=
  ⟨h.steps.trans h'.steps, fun hs hc => h'.closes (h.steps.sound hs) (h.closes hs hc)⟩

/-- Changes that the ledger and the log do not see. -/
theorem Refines.of_eq (h : w'.ledger = w.ledger) (hlog : w'.os.log = w.os.log) :
    Refines w w' :=
  ⟨h ▸ .refl, fun _ hc => by simpa only [ClosesOpen, hlog] using hc⟩

theorem Refines.of_step (h : Ledger.Step {0} w.ledger w'.ledger) (hlog : w'.os.log = w.os.log) :
    Refines w w' :=
  ⟨.single h, fun _ hc => by simpa only [ClosesOpen, hlog] using hc⟩

theorem hold_put (w : World) (p : Place) (o : Option Obj) :
    (w.put p o).ledger.hold = Function.update w.ledger.hold p (heldBy o) := by
  funext q
  simp only [ledger, put, Function.update_apply]
  split <;> rfl

/-- Replacing an object by one that holds the same. -/
theorem refines_put {o : Option Obj} (h : heldBy o = heldBy (w.objs p)) :
    Refines w (w.put p o) := by
  refine .of_eq ?_ rfl
  have hold : (w.put p o).ledger.hold = w.ledger.hold := by
    rw [hold_put, h]
    exact Function.update_eq_self p _
  exact congrArg (fun hold => { w.ledger with hold := hold }) hold

theorem heldBy_of_nonneg {o : Obj} (h : 0 ≤ o.h.fd) : heldBy (some o) = some o.h.fd := by
  simp [heldBy, h]

theorem heldBy_of_neg {o : Obj} (h : o.h.fd < 0) : heldBy (some o) = none := by
  simp [heldBy, h]

theorem heldBy_of_closed {o : Obj} (h : o.h = ⟨-1⟩) : heldBy (some o) = none := by
  apply heldBy_of_neg
  simp [h]

theorem hold_of_nonneg {o : Obj} (ho : w.objs p = some o) (h : 0 ≤ o.h.fd) :
    w.ledger.hold p = some o.h.fd := by
  simp only [ledger, ho]
  exact heldBy_of_nonneg h

theorem heldBy_eq_some {o : Option Obj} {fd : Int} :
    heldBy o = some fd ↔ ∃ a, o = some a ∧ 0 ≤ fd ∧ a.h.fd = fd := by
  cases o with
  | none => simp [heldBy]
  | some a =>
    simp only [heldBy, Option.bind_some, Option.some.injEq, exists_eq_left']
    constructor
    · intro h
      split at h
      · obtain rfl := Option.some.inj h
        exact ⟨by assumption, rfl⟩
      · cases h
    · rintro ⟨hfd, rfl⟩
      simp [hfd]

theorem refines_construct (h : w.objs p = none) (kind : Kind) (a : Alloc) (addr : HostAddress) :
    Refines w (w.construct p kind a addr) := by
  have hheld : heldBy (some (.ofHandle kind ⟨a.pick w.os.opened⟩ addr)) =
      some (a.pick w.os.opened) := heldBy_of_nonneg (a.nonneg _)
  have hledger : (w.construct p kind a addr).ledger =
      w.ledger.acquire p (a.pick w.os.opened) := by
    have hold := hold_put w p (some (.ofHandle kind ⟨a.pick w.os.opened⟩ addr))
    rw [hheld] at hold
    refine Ledger.ext hold ?_ ?_ ?_ rfl
    · exact Finset.coe_insert _ _
    · have hout := outstanding_given w.os.log (a.pick w.os.opened)
      exact (congrArg _ hout).trans (Finset.coe_insert _ _)
    · ext fd
      simp [ledger, construct, Ledger.acquire, or_comm]
  refine ⟨.single (hledger ▸ .acquire _ p _ ?_ ?_), fun _ hc => ?_⟩
  · simp [ledger, h, heldBy]
  · simpa [ledger] using a.fresh w.os.opened
  · intro fd wasOpen rc hmem
    simp only [construct, Os.log_newFd, List.mem_append, List.mem_singleton, reduceCtorEq,
      or_false] at hmem
    exact hc fd wasOpen rc hmem

theorem refines_exchange (w : World) (p q : Place) : Refines w (w.exchange p q) :=
  .of_step (.exchange w.ledger p q) rfl

theorem refines_swap (h : w.swap p q = some w') : Refines w w' := by
  obtain ⟨a, b, ha, hb, -, rfl⟩ := swap_eq_some h
  have hfirst : heldBy (some (a.swap b).1) = heldBy (w.objs q) := by
    simp only [hb, heldBy, Obj.swap, Option.bind_some]
    split <;> rfl
  have hsecond : heldBy (some (a.swap b).2) = heldBy (w.objs p) := by
    simp only [ha, heldBy, Obj.swap, Option.bind_some]
    split <;> rfl
  have hold : ((w.put p (some (a.swap b).1)).put q (some (a.swap b).2)).ledger.hold =
      w.ledger.hold ∘ Equiv.swap p q := by
    rw [hold_put, hold_put, hfirst, hsecond]
    funext x
    simp only [Function.update_apply, Function.comp_apply, Equiv.swap_apply_def]
    grind [ledger]
  have hledger : ((w.put p (some (a.swap b).1)).put q (some (a.swap b).2)).ledger =
      w.ledger.exchange p q := Ledger.ext hold rfl rfl rfl rfl
  exact .of_step (hledger ▸ .exchange _ p q) rfl

/-- A positive descriptor is released. -/
theorem refines_release {o o' : Obj} (ho : w.objs p = some o) (hpos : 0 < o.h.fd)
    (ho' : o'.h = ⟨-1⟩) {os : Os} (hprep : Prepares w.os os) (reply : Reply) :
    Refines w { w.put p (some o') with os := (os.close o.h.fd reply).os } := by
  have hheld : w.ledger.hold p = some o.h.fd := hold_of_nonneg ho (by omega)
  have hold := hold_put w p (some o')
  rw [heldBy_of_closed ho'] at hold
  refine ⟨.single ?_, fun hsound hc => ?_⟩
  · have hledger : (World.ledger { w.put p (some o') with os := (os.close o.h.fd reply).os }) =
        w.ledger.release p o.h.fd := by
      refine Ledger.ext hold ?_ ?_ ?_ rfl
      · simp [ledger, Ledger.release, hprep.opened]
      · simp [ledger, Ledger.release, outstanding_close, hprep.outstanding_eq]
      · ext fd
        have hmem : Call.given fd ∈ os.log ↔ .given fd ∈ w.os.log := hprep.mem_log rfl
        simp [ledger, Ledger.release, hmem]
    rw [hledger]
    refine .release _ p _ hheld ?_
    rw [Set.mem_singleton_iff]
    omega
  · intro fd wasOpen rc hmem
    rw [Os.log_close, List.mem_append, hprep.mem_log rfl, List.mem_singleton] at hmem
    rcases hmem with hmem | hmem
    · exact hc fd wasOpen rc hmem
    · obtain ⟨rfl, rfl, -⟩ := Call.close.inj hmem
      have halive := hsound.alive p _ hheld
      simpa [ledger, hprep.opened] using halive

/-- Descriptor 0 is forgotten. -/
theorem refines_forget {o o' : Obj} (ho : w.objs p = some o) (hpos : ¬ 0 < o.h.fd)
    (ho' : o'.h = ⟨-1⟩) : Refines w (w.put p (some o')) := by
  by_cases hzero : o.h.fd = 0
  · have hheld : w.ledger.hold p = some 0 := hzero ▸ hold_of_nonneg ho (by omega)
    have hold := hold_put w p (some o')
    rw [heldBy_of_closed ho'] at hold
    have hledger : (w.put p (some o')).ledger = w.ledger.forget p :=
      Ledger.ext hold rfl rfl rfl rfl
    exact .of_step (hledger ▸ .forget _ p 0 hheld rfl) rfl
  · apply refines_put
    rw [heldBy_of_closed ho', ho, heldBy_of_neg (by omega)]

theorem refines_close (h : w.close plat p r = some w') : Refines w w' := by
  obtain ⟨o, ho, rfl⟩ := close_eq_some h
  obtain ⟨hhandle, hreleased, hkept⟩ := Obj.closeOf_closes o.kind plat o.h w.os r
  by_cases hpos : 0 < o.h.fd
  · obtain ⟨os', hprep, hos⟩ := hreleased hpos
    rw [hos]
    exact refines_release ho hpos hhandle hprep r.close
  · rw [hkept (by omega)]
    exact refines_forget ho hpos hhandle

theorem refines_remove {o : Obj} (ho : w.objs p = some o) (hclosed : o.h = ⟨-1⟩) :
    Refines w (w.put p none) := by
  apply refines_put
  rw [ho, heldBy_of_closed hclosed]
  rfl

theorem refines_default (h : w.objs p = none) (kind : Kind) :
    Refines w (w.put p (some (.default kind))) := by
  apply refines_put
  rw [h]
  exact heldBy_of_closed rfl

theorem refines_setDevice (w : World) (d : Nat) (alive : Bool) : Refines w (w.setDevice d alive) :=
  .of_eq rfl rfl

theorem refines_foreignOpen (w : World) (a : Alloc) :
    Refines w { w with
      foreign := insert (a.pick w.os.opened) w.foreign
      os := { w.os with opened := insert (a.pick w.os.opened) w.os.opened } } := by
  have hledger : (World.ledger { w with
      foreign := insert (a.pick w.os.opened) w.foreign
      os := { w.os with opened := insert (a.pick w.os.opened) w.os.opened } }) =
      w.ledger.appear (a.pick w.os.opened) :=
    Ledger.ext rfl (Finset.coe_insert _ _) rfl rfl (Finset.coe_insert _ _)
  refine .of_step (hledger ▸ .appear _ _ ?_) rfl
  simpa [ledger] using a.fresh w.os.opened

theorem refines_foreignClose {fd : Int} (h : fd ∈ w.foreign) :
    Refines w { w with
      foreign := w.foreign.erase fd
      os := { w.os with opened := w.os.opened.erase fd } } := by
  have hledger : (World.ledger { w with
      foreign := w.foreign.erase fd
      os := { w.os with opened := w.os.opened.erase fd } }) = w.ledger.vanish fd :=
    Ledger.ext rfl (Finset.coe_erase _ _) rfl rfl (Finset.coe_erase _ _)
  exact .of_step (hledger ▸ .vanish _ fd (by simpa [ledger] using h)) rfl

theorem piece_refines {kinds : Kind → Prop} (h : Piece plat kinds w w') : Refines w w' := by
  cases h with
  | default p kind hp => exact refines_default hp kind
  | construct p kind a addr hp _ => exact refines_construct hp kind a addr
  | swap p q h => exact refines_swap h
  | close p r h => exact refines_close h
  | remove p o ho hclosed => exact refines_remove ho hclosed
  | exchange p q => exact refines_exchange w p q
  | setDevice d alive => exact refines_setDevice w d alive
  | foreignOpen a => exact refines_foreignOpen w a
  | foreignClose fd h => exact refines_foreignClose h

/-- Every step of a program is made of ledger steps, when no temporary is left over. -/
theorem step_refines (ht : w.objs .temp = none) {a : Action} (h : step plat w a = some w') :
    Refines w w' :=
  (step_made ht h).pieces.rule .refl .trans piece_refines

/-- The invariant of programs. -/
structure Owned (w : World) : Prop where
  sound : w.ledger.Sound
  balanced : w.ledger.Balanced {0}
  closes : w.ClosesOpen
  temp : w.objs .temp = none

theorem Owned.start (opened : Finset Int) (errno : Nat) : Owned (start opened errno) := by
  refine ⟨⟨?_, ?_, ?_, ?_⟩, ⟨?_, ?_, ?_, ?_⟩, ?_, rfl⟩
  all_goals simp [ledger, World.start, heldBy, outstanding, ClosesOpen]

theorem Owned.step (h : Owned w) {a : Action} (hstep : step plat w a = some w') : Owned w' := by
  have hrefines := step_refines h.temp hstep
  exact ⟨hrefines.steps.sound h.sound, hrefines.steps.balanced h.balanced,
    hrefines.closes h.sound h.closes, (step_made h.temp hstep).temp⟩

theorem Owned.run {opened : Finset Int} {errno : Nat} {actions : List Action}
    (h : Machine.run (World.step plat) (World.start opened errno) actions = some w) : Owned w :=
  Machine.run_keeps (fun _ _ _ hs hst => hs.step hst) (.start opened errno) h

/-- Exclusive ownership: in every state that a program reaches, no descriptor is held by
two objects, every one that is held is open, and no close was on one that was not. -/
theorem run_owned (plat : Platform) (opened : Finset Int) (errno : Nat) (actions : List Action)
    (w : World) (hrun : Machine.run (step plat) (start opened errno) actions = some w) :
    (∀ p q a b, w.objs p = some a → w.objs q = some b → 0 ≤ a.h.fd → a.h.fd = b.h.fd → p = q) ∧
      (∀ p a, w.objs p = some a → 0 ≤ a.h.fd → a.h.fd ∈ w.os.opened) ∧
      ∀ fd wasOpen rc, .close fd wasOpen rc ∈ w.os.log → wasOpen = true := by
  have h := Owned.run hrun
  refine ⟨?_, ?_, h.closes⟩
  · intro p q a b ha hb hfd heq
    have hfirst := hold_of_nonneg ha hfd
    have hsecond := hold_of_nonneg hb (heq ▸ hfd)
    exact h.sound.unique p q _ hfirst (heq ▸ hsecond)
  · intro p a ha hfd
    simpa [ledger] using h.sound.alive p _ (hold_of_nonneg ha hfd)

/-- A server is moved from and closed, its number is given to a file, the file is assigned
to itself, wrapped, closed twice and destroyed with its device. -/
def reuse : List Action :=
  [.construct 0 .tcpServer (.prefer 3) .zero, .moveConstruct 1 .tcpServer (.var 0),
    .close (.var 1) {}, .construct 2 .file (.prefer 3) .zero, .moveAssign (.var 2) (.var 2) {},
    .deviceWrap 0 (.var 2), .close (.pointee 0) {}, .close (.pointee 0) {}, .destroy 1 {},
    .deviceDestroy 0 {} {}]

theorem run_owned_reuse :
    ∃ w, Machine.run (step .linux) (start ∅ 0) reuse = some w ∧ w.os.opened = ∅ ∧
      (∀ p q a b, w.objs p = some a → w.objs q = some b → 0 ≤ a.h.fd → a.h.fd = b.h.fd → p = q) ∧
      (∀ p a, w.objs p = some a → 0 ≤ a.h.fd → a.h.fd ∈ w.os.opened) ∧
      ∀ fd wasOpen rc, .close fd wasOpen rc ∈ w.os.log → wasOpen = true :=
  ⟨_, rfl, rfl, run_owned .linux ∅ 0 reuse _ rfl⟩

end World

end PfsIo
