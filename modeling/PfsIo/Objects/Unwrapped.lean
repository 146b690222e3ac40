import PfsIo.Library.Simulation
import PfsIo.Objects.Pieces

/-!
# Devices are object variables

A `device` owns its object through a pointer, and is moved, assigned, exchanged and invalidated by
that pointer. A program with devices does what some program does that has variables of the classes
only: where a device takes an object over, a variable is move constructed and its source destroyed.

## Main definitions

* `World.varFor` — the variable for a place.
* `World.Action.isPlain` — the steps without devices.
* `World.Unwraps` — a program's state, and that of the program without devices.

## Main results

* `World.simulates_plain` — each step is matched by plain ones.
* `World.run_unwrapped` — each run is.
-/

namespace PfsIo

open Library

/-- An object without the members that its class does not have. -/
def Obj.members (o : Obj) : Obj := if o.kind.base = .udpSocket then o else { o with addr := .zero }

namespace Obj

variable {o a b : Obj}

@[simp] theorem members_kind (o : Obj) : o.members.kind = o.kind := by
  unfold members
  split <;> rfl

@[simp] theorem members_h (o : Obj) : o.members.h = o.h := by
  unfold members
  split <;> rfl

@[simp] theorem members_members (o : Obj) : o.members.members = o.members := by
  simp only [members]
  split <;> simp_all

@[simp] theorem members_default (kind : Kind) : (default kind).members = default kind := by
  unfold members
  split <;> rfl

/-- The address of an object with a class that has none is not used by `swap`. -/
theorem swap_members (h : a.kind.base = b.kind.base) :
    a.members.swap b.members = ((a.swap b).1.members, (a.swap b).2.members) := by
  by_cases hudp : a.kind.base = .udpSocket
  · have hudp' : b.kind.base = .udpSocket := h ▸ hudp
    simp [members, swap, hudp, hudp']
  · have hudp' : b.kind.base ≠ .udpSocket := h ▸ hudp
    simp [members, swap, hudp, hudp']

theorem members_setHandle (o : Obj) (h : DeviceHandle) :
    ({ o with h := h } : Obj).members = { o.members with h := h } := by
  unfold members
  simp only
  split <;> rfl

/-- A default constructed object that is swapped with another of its class takes its place. -/
theorem swap_default (h : b.members = b) : (default b.kind).swap b = (b, default b.kind) := by
  obtain ⟨kind, handle, addr⟩ := b
  by_cases hudp : kind.base = .udpSocket
  · simp [swap, default, hudp]
  · have haddr : addr = .zero := by
      have hmembers := congrArg Obj.addr h
      simpa [members, hudp] using hmembers.symm
    simp [swap, default, hudp, haddr]

end Obj

namespace World

/-- The variable that stands for a place; there are others between. -/
def varFor : Place → Place
  | .var i => .var (3 * i)
  | .pointee d => .var (3 * d + 1)
  | .temp => .temp

@[simp] theorem varFor_temp : varFor .temp = .temp := rfl

theorem varFor_inj {p q : Place} : varFor p = varFor q ↔ p = q := by
  cases p <;> cases q <;> grind [varFor]

/-- A variable that stands for no place. -/
def spare : Place := .var 2

theorem varFor_ne_spare (p : Place) : varFor p ≠ spare := by
  cases p with
  | temp => simp [varFor, spare]
  | var i | pointee d =>
    simp only [varFor, spare, ne_eq, Place.var.injEq]
    omega

/-- A place that is no device's. -/
def isPlainPlace : Place → Bool
  | .pointee _ => false
  | _ => true

/-- The steps of programs without devices. -/
def Action.isPlain : Action → Bool
  | .default _ _ | .construct _ _ _ _ | .destroy _ _ | .foreignOpen _ | .foreignClose _ => true
  | .moveConstruct _ _ q | .close q _ => isPlainPlace q
  | .moveAssign p q _ | .swap p q => isPlainPlace p && isPlainPlace q
  | _ => false

/-- The states of a program and of one without devices: the kernel is the same, and so is the object
at each place and in its variable. -/
structure Unwraps (w v : World) : Prop where
  os : v.os = w.os
  foreign : v.foreign = w.foreign
  objs : ∀ p, v.objs (varFor p) = (w.objs p).map Obj.members
  spare : v.objs spare = none

/-- Steps without devices lead from one state to the other. -/
abbrev PlainReaches (plat : Platform) : World → World → Prop :=
  Machine.Reaches (step plat) fun a => a.isPlain = true

theorem reaches_step {plat : Platform} {v v' : World} (a : Action) (h : step plat v a = some v')
    (ha : a.isPlain = true) : PlainReaches plat v v' :=
  .single h ha

section Members

variable {plat : Platform} {w w' v : World} {p q : Place} {r r' : CloseReplies}

theorem Unwraps.setDevice (h : Unwraps w v) (d : Nat) (alive : Bool) :
    Unwraps (w.setDevice d alive) v :=
  ⟨h.os, h.foreign, h.objs, h.spare⟩

theorem Unwraps.put (h : Unwraps w v) (p : Place) (o : Option Obj) :
    Unwraps (w.put p o) (v.put (varFor p) (o.map Obj.members)) := by
  refine ⟨h.os, h.foreign, fun q => ?_, ?_⟩
  · simp only [World.put, Function.update_apply, varFor_inj]
    split
    · rfl
    · exact h.objs q
  · simp only [World.put, Function.update_of_ne (varFor_ne_spare p).symm]
    exact h.spare

theorem Unwraps.exchange (h : Unwraps w v) (p q : Place) :
    Unwraps (w.exchange p q) (v.exchange (varFor p) (varFor q)) := by
  have hswap : ∀ x, Equiv.swap (varFor p) (varFor q) (varFor x) = varFor (Equiv.swap p q x) := by
    intro x
    simp only [Equiv.swap_apply_def, varFor_inj]
    split
    · rfl
    · split <;> rfl
  refine ⟨h.os, h.foreign, fun x => ?_, ?_⟩
  · simp only [World.exchange, Function.comp_apply, hswap]
    exact h.objs _
  · simp only [World.exchange, Function.comp_apply,
      Equiv.swap_apply_of_ne_of_ne (varFor_ne_spare p).symm (varFor_ne_spare q).symm]
    exact h.spare

/-- The object in the variable for a place. -/
theorem Unwraps.mem (h : Unwraps w v) {o : Obj} (ho : w.objs p = some o) :
    v.objs (varFor p) = some o.members := by
  rw [h.objs, ho, Option.map_some]

theorem Unwraps.free (h : Unwraps w v) (hp : w.objs p = none) : v.objs (varFor p) = none := by
  rw [h.objs, hp, Option.map_none]

theorem Unwraps.swap (h : Unwraps w v) (hswap : w.swap p q = some w') :
    ∃ v', v.swap (varFor p) (varFor q) = some v' ∧ Unwraps w' v' := by
  obtain ⟨a, b, ha, hb, hbase, rfl⟩ := swap_eq_some hswap
  refine ⟨_, ?_, (h.put p (some (a.swap b).1)).put q (some (a.swap b).2)⟩
  simp only [World.swap, h.mem ha, h.mem hb, Obj.members_kind, if_pos hbase,
    Obj.swap_members hbase, Option.map_some]

theorem Unwraps.close (h : Unwraps w v) (hclose : w.close plat p r = some w') :
    ∃ v', v.close plat (varFor p) r = some v' ∧ Unwraps w' v' := by
  obtain ⟨o, ho, rfl⟩ := close_eq_some hclose
  have hput := h.put p (some { o with h := (Obj.closeOf o.kind plat o.h w.os r).value })
  rw [Option.map_some, Obj.members_setHandle] at hput
  refine ⟨{ v.put (varFor p) (some { o.members with
    h := (Obj.closeOf o.kind plat o.h w.os r).value }) with
      os := (Obj.closeOf o.kind plat o.h w.os r).os }, ?_, ?_⟩
  · simp only [World.close, h.mem ho, Option.map_some, Obj.close, Obj.members_kind, Obj.members_h,
      h.os]
  · exact ⟨rfl, hput.foreign, hput.objs, hput.spare⟩

theorem Unwraps.destroy (h : Unwraps w v) (hdestroy : w.destroy plat p r = some w') :
    ∃ v', v.destroy plat (varFor p) r = some v' ∧ Unwraps w' v' := by
  obtain ⟨u, hu, rfl⟩ := destroy_eq_some hdestroy
  obtain ⟨v', hv', hu'⟩ := h.close hu
  exact ⟨v'.put (varFor p) none, by simp [World.destroy, hv'], hu'.put p none⟩

theorem Unwraps.moveConstruct (h : Unwraps w v) {kind : Kind}
    (hmove : w.moveConstruct p kind q = some w') :
    ∃ v', v.moveConstruct (varFor p) kind (varFor q) = some v' ∧ Unwraps w' v' := by
  have hput := h.put p (some (.default kind))
  rw [Option.map_some, Obj.members_default] at hput
  exact hput.swap hmove

theorem Unwraps.moveAssign (h : Unwraps w v) (hmove : w.moveAssign plat p q r = some w') :
    ∃ v', v.moveAssign plat (varFor p) (varFor q) r = some v' ∧ Unwraps w' v' := by
  unfold World.moveAssign at hmove
  split at hmove
  · cases hmove
  · next a ha =>
    obtain ⟨w₁, hw₁, hmove⟩ := Option.bind_eq_some_iff.mp hmove
    obtain ⟨w₂, hw₂, hdestroy⟩ := Option.bind_eq_some_iff.mp hmove
    have hput := h.put .temp (some (.default a.kind.base))
    rw [Option.map_some, Obj.members_default] at hput
    obtain ⟨v₁, hv₁, h₁⟩ := hput.swap hw₁
    obtain ⟨v₂, hv₂, h₂⟩ := h₁.swap hw₂
    obtain ⟨v', hv', h'⟩ := h₂.destroy hdestroy
    rw [varFor_temp] at hv₁ hv₂ hv'
    refine ⟨v', ?_, h'⟩
    simp only [World.moveAssign, h.mem ha, Obj.members_kind, hv₁, Option.bind_some, hv₂, hv']

theorem isPlainPlace_varFor (p : Place) : isPlainPlace (varFor p) = true := by
  cases p <;> rfl

end Members

section Moves

variable {plat : Platform} {w w' v : World} {p q : Place} {d e : Nat} {r r' : CloseReplies}

theorem destroy_of_some {o : Obj} (ho : w.objs p = some o) : w.destroy plat p r =
    some { w.put p none with os := (Obj.closeOf o.kind plat o.h w.os r).os } := by
  simp [World.destroy, World.close, ho, Obj.close, World.put]

/-- What is left of an object that was moved is destroyed without a call. -/
theorem destroy_default {kind : Kind} (ho : w.objs p = some (.default kind)) :
    w.destroy plat p {} = some (w.put p none) := by
  have hkept := (Obj.closeOf_closes kind plat {} w.os {}).kept (by decide)
  rw [destroy_of_some ho]
  simp only [Obj.default, hkept]
  rfl

/-- An object is moved to a variable that is free: it is move constructed there, and its source is
destroyed. -/
theorem reaches_move {i j : Nat} {b : Obj} (hi : v.objs (.var i) = none)
    (hj : v.objs (.var j) = some b) (hb : b.members = b) :
    PlainReaches plat v (v.exchange (.var i) (.var j)) := by
  have hne : (Place.var j) ≠ .var i := by
    rintro heq
    rw [heq, hi] at hj
    cases hj
  let u : World := (v.put (.var i) (some b)).put (.var j) (some (.default b.kind))
  have hfirst : World.step plat v (.moveConstruct i b.kind (.var j)) = some u := by
    have hput : (v.put (.var i) (some (.default b.kind))).objs (.var j) = some b := by
      simp [World.put, Function.update_of_ne hne, hj]
    have hself : (v.put (.var i) (some (.default b.kind))).objs (.var i) =
        some (.default b.kind) := Function.update_self _ _ _
    have hfree : v.isFree (.var i) = true := by simp [isFree, hi]
    have hbase : (Obj.default b.kind).kind.base = b.kind.base := rfl
    simp only [World.step, hj, hfree, true_and, true_or, if_true, World.moveConstruct, World.swap,
      hself, hput, hbase, Obj.swap_default hb]
    simp [u, World.put]
  have hsecond : World.step plat u (.destroy j {}) = some (u.put (.var j) none) :=
    destroy_default (Function.update_self _ _ _)
  have hend : u.put (.var j) none = v.exchange (.var i) (.var j) := by
    have hobjs : (u.put (.var j) none).objs = v.objs ∘ Equiv.swap (.var i) (.var j) := by
      funext x
      simp only [u, World.put, Function.update_apply, Function.comp_apply, Equiv.swap_apply_def]
      grind
    exact congrArg (fun objs => { v with objs := objs }) hobjs
  rw [hend] at hsecond
  exact (reaches_step _ hfirst rfl).trans (reaches_step _ hsecond rfl)

theorem exchange_self (v : World) (p : Place) : v.exchange p p = v := by
  simp [World.exchange]

theorem exchange_none (hp : v.objs p = none) (hq : v.objs q = none) : v.exchange p q = v := by
  have hobjs : v.objs ∘ Equiv.swap p q = v.objs := by
    funext x
    simp only [Function.comp_apply, Equiv.swap_apply_def]
    grind
  exact congrArg (fun objs => { v with objs := objs }) hobjs

/-- An exchange by a third place that is empty. -/
theorem exchange_by {s : Place} (hp : p ≠ s) (hq : q ≠ s) (hpq : p ≠ q) :
    ((v.exchange s p).exchange p q).exchange q s = v.exchange p q := by
  have hobjs : ((v.objs ∘ Equiv.swap s p) ∘ Equiv.swap p q) ∘ Equiv.swap q s =
      v.objs ∘ Equiv.swap p q := by
    funext x
    simp only [Function.comp_apply, Equiv.swap_apply_def]
    grind
  exact congrArg (fun objs => { v with objs := objs }) hobjs

/-- The objects of two devices are exchanged by moves. -/
theorem Unwraps.reaches_exchange (h : Unwraps w v) (d e : Nat) :
    PlainReaches plat v (v.exchange (varFor (.pointee d)) (varFor (.pointee e))) := by
  have hd := h.objs (.pointee d)
  have he := h.objs (.pointee e)
  cases hod : w.objs (.pointee d) with
  | none =>
    rw [hod, Option.map_none] at hd
    cases hoe : w.objs (.pointee e) with
    | none =>
      rw [hoe, Option.map_none] at he
      rw [exchange_none hd he]
      exact .refl v
    | some b =>
      rw [hoe, Option.map_some] at he
      exact reaches_move hd he b.members_members
  | some a =>
    rw [hod, Option.map_some] at hd
    cases hoe : w.objs (.pointee e) with
    | none =>
      rw [hoe, Option.map_none] at he
      have hcomm : v.exchange (varFor (.pointee d)) (varFor (.pointee e)) =
          v.exchange (varFor (.pointee e)) (varFor (.pointee d)) := by
        simp only [World.exchange, Equiv.swap_comm]
      rw [hcomm]
      exact reaches_move he hd a.members_members
    | some b =>
      rw [hoe, Option.map_some] at he
      by_cases hne : d = e
      · rw [hne, exchange_self]
        exact .refl v
      · have hpq : varFor (.pointee d) ≠ varFor (.pointee e) := by
          simpa [varFor_inj] using hne
        have hp := varFor_ne_spare (.pointee d)
        have hq := varFor_ne_spare (.pointee e)
        rw [← exchange_by hp hq hpq]
        -- the object of the first device waits in the spare variable
        have hfirst : PlainReaches plat v (v.exchange World.spare (varFor (.pointee d))) :=
          reaches_move h.spare hd a.members_members
        refine hfirst.trans (.trans (reaches_move ?_ ?_ b.members_members)
          (reaches_move ?_ ?_ a.members_members))
        all_goals simp only [World.exchange, Function.comp_apply, Equiv.swap_apply_def]
        all_goals grind [varFor, World.spare, h.spare]

theorem close_of_some {o : Obj} (ho : w.objs p = some o) : w.close plat p r =
    some { w.put p (some { o with h := ⟨-1⟩ }) with
      os := (Obj.closeOf o.kind plat o.h w.os r).os } := by
  have hhandle := (Obj.closeOf_closes o.kind plat o.h w.os r).handle
  simp [World.close, ho, Obj.close, hhandle, World.put]

/-- The heap object of a device is dropped at any place. -/
theorem dropDevice_of_some {o : Obj} (ho : w.objs p = some o) : w.dropDevice plat p r r' =
    some { w.put p none with
      os := if o.opened then
          (Obj.closeOf o.kind plat ⟨-1⟩ (Obj.closeOf o.kind plat o.h w.os r).os r').os
        else (Obj.closeOf o.kind plat o.h w.os r').os } := by
  simp only [World.dropDevice, ho]
  split
  · rw [close_of_some ho, Option.bind_some, destroy_of_some (Function.update_self _ _ _)]
    simp [World.put]
  · exact destroy_of_some ho

/-- An invalidated device drops its object where it is. -/
theorem invalidate_eq (ht : w.objs .temp = none) :
    w.invalidate plat d r r' = w.dropDevice plat (.pointee d) r r' := by
  unfold World.invalidate
  cases ho : w.objs (.pointee d) with
  | none => simp [World.dropDevice, ho]
  | some o =>
    have hmoved : (w.exchange (.pointee d) .temp).objs .temp = some o := by
      simp [World.exchange, ho]
    have hobjs : Function.update (w.objs ∘ Equiv.swap (.pointee d) .temp) .temp none =
        Function.update w.objs (.pointee d) none := by
      funext x
      simp only [Function.update_apply, Function.comp_apply, Equiv.swap_apply_def]
      grind
    rw [Option.isSome_some, if_pos rfl, dropDevice_of_some hmoved, dropDevice_of_some ho]
    simp only [World.put, World.exchange, hobjs]

theorem Unwraps.dropDevice (h : Unwraps w v)
    (hdrop : w.dropDevice plat (.pointee d) r r' = some w') :
    ∃ v', PlainReaches plat v v' ∧ Unwraps w' v' := by
  unfold World.dropDevice at hdrop
  split at hdrop
  · obtain rfl := Option.some.inj hdrop
    exact ⟨v, .refl v, h⟩
  · split at hdrop
    · obtain ⟨u, hu, hdrop⟩ := Option.bind_eq_some_iff.mp hdrop
      obtain ⟨v₁, hv₁, h₁⟩ := h.close hu
      obtain ⟨v₂, hv₂, h₂⟩ := h₁.destroy hdrop
      exact ⟨v₂, (reaches_step (.close (varFor (.pointee d)) r) hv₁ rfl).trans
        (reaches_step (.destroy (3 * d + 1) r') hv₂ rfl), h₂⟩
    · obtain ⟨v₁, hv₁, h₁⟩ := h.destroy hdrop
      exact ⟨v₁, reaches_step (.destroy (3 * d + 1) r') hv₁ rfl, h₁⟩

theorem Unwraps.deviceAssign (h : Unwraps w v) (hassign : w.deviceAssign plat d e r = some w') :
    ∃ v', PlainReaches plat v v' ∧ Unwraps w' v' := by
  unfold World.deviceAssign at hassign
  split at hassign
  · obtain rfl := Option.some.inj hassign
    exact ⟨v, .refl v, h⟩
  · split at hassign
    · obtain rfl := Option.some.inj hassign
      exact ⟨_, h.reaches_exchange d e, h.exchange _ _⟩
    · obtain ⟨u, hu, rfl⟩ := Option.map_eq_some_iff.mp hassign
      obtain ⟨v₁, hv₁, h₁⟩ := h.destroy hu
      exact ⟨_, (reaches_step (.destroy (3 * d + 1) r) hv₁ rfl).trans (h₁.reaches_exchange d e),
        h₁.exchange _ _⟩

end Moves

section Steps

variable {plat : Platform} {w w' v : World} {p q : Place} {kind : Kind}

theorem Unwraps.isFree (h : Unwraps w v) (hfree : w.isFree p = true) :
    v.isFree (varFor p) = true := by
  have hnone := h.free (objs_of_isFree hfree)
  cases p with
  | var i | pointee d => simpa [varFor, World.isFree] using hnone
  | temp => cases hfree

theorem Unwraps.construct (h : Unwraps w v) (p : Place) (kind : Kind) (a : Alloc)
    (addr : HostAddress) : Unwraps (w.construct p kind a addr)
      (v.construct (varFor p) kind a (if kind.base = .udpSocket then addr else .zero)) := by
  have hmembers : ∀ handle, (Obj.ofHandle kind handle addr).members =
      .ofHandle kind handle (if kind.base = .udpSocket then addr else .zero) := by
    intro handle
    simp only [Obj.members, Obj.ofHandle, Obj.default, HostAddress.swap_eq]
    split <;> rfl
  have hput := h.put p (some (.ofHandle kind ⟨(w.os.newFd .given (.ok a)).rc⟩ addr))
  rw [Option.map_some, hmembers] at hput
  refine ⟨?_, hput.foreign, ?_, ?_⟩
  all_goals simp only [World.construct, h.os]
  · exact hput.objs
  · exact hput.spare

/-- The move constructor of an object at a free place. -/
theorem Unwraps.step_moveConstruct (h : Unwraps w v) {i : Nat} (hp : varFor p = .var i) {b : Obj}
    (hb : w.objs q = some b) (hfree : w.isFree p = true)
    (hkind : kind = b.kind ∨ kind = b.kind.base)
    (hmove : w.moveConstruct p kind q = some w') :
    ∃ v', World.step plat v (.moveConstruct i kind (varFor q)) = some v' ∧ Unwraps w' v' := by
  obtain ⟨v', hv', h'⟩ := h.moveConstruct hmove
  have hfree := h.isFree hfree
  rw [hp] at hv' hfree
  refine ⟨v', ?_, h'⟩
  simp only [World.step, h.mem hb, Obj.members_kind]
  rw [if_pos ⟨hfree, hkind⟩, hv']

/-- Each step is matched by steps without devices. -/
theorem simulates_plain (plat : Platform) : Machine.Simulates (step plat) (step plat)
    (fun a => a.isPlain = true) fun w v => w.objs .temp = none ∧ Unwraps w v := by
  rintro w v a w' ⟨ht, h⟩ hstep
  have ht' := (step_made ht hstep).temp
  suffices hmatch : ∃ v', PlainReaches plat v v' ∧ Unwraps w' v' by
    obtain ⟨v', hv', h'⟩ := hmatch
    exact ⟨v', hv', ht', h'⟩
  cases a with
  | default i kind =>
    obtain ⟨hfree, rfl⟩ := Option.ite_some_none_eq_some.mp hstep
    have hput := h.put (.var i) (some (.default kind))
    rw [Option.map_some, Obj.members_default] at hput
    exact ⟨_, reaches_step (.default (3 * i) kind) (if_pos (h.isFree hfree)) rfl, hput⟩
  | construct i kind a addr =>
    obtain ⟨hfree, rfl⟩ := Option.ite_some_none_eq_some.mp hstep
    exact ⟨_, reaches_step (.construct (3 * i) kind a _) (if_pos (h.isFree hfree)) rfl,
      h.construct (.var i) kind a addr⟩
  | moveConstruct i kind q =>
    simp only [step] at hstep
    split at hstep
    · cases hstep
    · next b hb =>
      obtain ⟨⟨hfree, hkind⟩, hmove⟩ := Option.ite_none_right_eq_some.mp hstep
      obtain ⟨v', hv', h'⟩ := h.step_moveConstruct rfl hb hfree hkind hmove
      exact ⟨v', reaches_step _ hv' (isPlainPlace_varFor q), h'⟩
  | moveAssign p q r =>
    obtain ⟨v', hv', h'⟩ := h.moveAssign hstep
    exact ⟨v', reaches_step (.moveAssign (varFor p) (varFor q) r) hv'
      (by simp [Action.isPlain, isPlainPlace_varFor]), h'⟩
  | swap p q =>
    obtain ⟨v', hv', h'⟩ := h.swap hstep
    exact ⟨v', reaches_step (.swap (varFor p) (varFor q)) hv'
      (by simp [Action.isPlain, isPlainPlace_varFor]), h'⟩
  | close p r =>
    obtain ⟨v', hv', h'⟩ := h.close hstep
    exact ⟨v', reaches_step (.close (varFor p) r) hv' (isPlainPlace_varFor p), h'⟩
  | destroy i r =>
    obtain ⟨v', hv', h'⟩ := h.destroy hstep
    exact ⟨v', reaches_step (.destroy (3 * i) r) hv' rfl, h'⟩
  | deviceNull d =>
    obtain ⟨-, rfl⟩ := Option.ite_some_none_eq_some.mp hstep
    exact ⟨v, .refl v, h.setDevice d true⟩
  | deviceNew d kind a addr =>
    obtain ⟨⟨hfree, -⟩, rfl⟩ := Option.ite_some_none_eq_some.mp hstep
    exact ⟨_, reaches_step (.construct (3 * d + 1) kind a _) (if_pos (h.isFree hfree)) rfl,
      (h.construct (.pointee d) kind a addr).setDevice d true⟩
  | deviceWrap d q =>
    simp only [step] at hstep
    split at hstep
    · cases hstep
    · next b hb =>
      obtain ⟨⟨hfree, -⟩, hmove⟩ := Option.ite_none_right_eq_some.mp hstep
      obtain ⟨u, hu, rfl⟩ := Option.map_eq_some_iff.mp hmove
      obtain ⟨v', hv', h'⟩ := h.step_moveConstruct rfl hb hfree (.inl rfl) hu
      exact ⟨v', reaches_step _ hv' (isPlainPlace_varFor q), h'.setDevice d true⟩
  | deviceMove d e =>
    obtain ⟨-, rfl⟩ := Option.ite_some_none_eq_some.mp hstep
    exact ⟨_, h.reaches_exchange d e, (h.exchange _ _).setDevice d true⟩
  | deviceAssign d e r =>
    obtain ⟨-, hassign⟩ := Option.ite_none_right_eq_some.mp hstep
    exact h.deviceAssign hassign
  | deviceSwap d e =>
    obtain ⟨-, rfl⟩ := Option.ite_some_none_eq_some.mp hstep
    exact ⟨_, h.reaches_exchange d e, h.exchange _ _⟩
  | invalidate d r r' =>
    obtain ⟨-, hdrop⟩ := Option.ite_none_right_eq_some.mp hstep
    rw [invalidate_eq ht] at hdrop
    exact h.dropDevice hdrop
  | deviceDestroy d r r' =>
    obtain ⟨-, hdrop⟩ := Option.ite_none_right_eq_some.mp hstep
    obtain ⟨u, hu, rfl⟩ := Option.map_eq_some_iff.mp hdrop
    obtain ⟨v', hv', h'⟩ := h.dropDevice hu
    exact ⟨v', hv', h'.setDevice d false⟩
  | foreignOpen a =>
    obtain rfl := Option.some.inj hstep
    refine ⟨_, reaches_step (.foreignOpen a) rfl rfl, ?_, ?_, h.objs, h.spare⟩
    all_goals simp only [h.os, h.foreign]
  | foreignClose fd =>
    obtain ⟨hmem, rfl⟩ := Option.ite_some_none_eq_some.mp hstep
    have hmem' : fd ∈ v.foreign := h.foreign ▸ hmem
    refine ⟨_, reaches_step (.foreignClose fd) (if_pos hmem') rfl, ?_, ?_, h.objs, h.spare⟩
    all_goals simp only [h.os, h.foreign]

/-- For every run of a program with devices there is a run of a program without them that makes the
same system calls in the same order with the same results, so that the same descriptors are open,
and that has at its end, for each object that a variable or a device of the first holds, a variable
with an object of the same class, the same handle, and for a UDP socket the same address. -/
theorem run_unwrapped (plat : Platform) (opened : Finset Int) (errno : Nat) (actions : List Action)
    (w : World) (hrun : Machine.run (step plat) (start opened errno) actions = some w) :
    ∃ plain v, (∀ a ∈ plain, a.isPlain = true) ∧
      Machine.run (step plat) (start opened errno) plain = some v ∧ v.os = w.os ∧
      v.foreign = w.foreign ∧ ∀ p, v.objs (varFor p) = (w.objs p).map Obj.members := by
  have hstart : Unwraps (start opened errno) (start opened errno) :=
    ⟨rfl, rfl, fun _ => rfl, rfl⟩
  obtain ⟨v, ⟨plain, hplain, hv⟩, -, h⟩ := (simulates_plain plat).run ⟨rfl, hstart⟩ hrun
  exact ⟨plain, v, hplain, hv, h.os, h.foreign, h.objs⟩

/-- Two devices of different classes are exchanged, one is moved and the other assigned to it, and
what is left is invalidated. -/
def wrapped : List Action :=
  [.deviceNew 0 .udpSocket (.prefer 3) (HostAddress.zero.memcpy [2, 0, 0, 53]),
    .deviceNew 1 .localPeer (.prefer 4) .zero, .deviceSwap 0 1, .deviceMove 2 0,
    .deviceAssign 2 1 {}, .invalidate 2 {} {}, .deviceDestroy 0 {} {}]

theorem run_unwrapped_wrapped :
    ∃ w, Machine.run (step .linux) (start {7} 0) wrapped = some w ∧ w.os.opened = {7} ∧
      ∃ plain v, (∀ a ∈ plain, a.isPlain = true) ∧
        Machine.run (step .linux) (start {7} 0) plain = some v ∧ v.os = w.os ∧
        v.foreign = w.foreign ∧ ∀ p, v.objs (varFor p) = (w.objs p).map Obj.members :=
  ⟨_, rfl, by decide, run_unwrapped .linux {7} 0 wrapped _ rfl⟩

end Steps

end World

end PfsIo
