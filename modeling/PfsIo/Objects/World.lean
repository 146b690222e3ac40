import Mathlib.Logic.Equiv.Basic
import PfsIo.Library.Machine
import PfsIo.Model.Objects

/-!
# Programs over objects and devices

A program has object variables and device variables; a device variable that is not null
owns an object on the heap. Constructors, assignments, swaps, closes and destructors are
the steps of the program, in any order. Other code opens and closes descriptors of its own.

## Main definitions

* `World` — the live objects, the live device variables, and the kernel.
* `World.swap`, `World.close`, `World.destroy`, `World.moveAssign`, `World.dropDevice` —
  the members.
* `World.step` — the steps.
-/

namespace PfsIo

open Library

/-- Where an object can be: a variable, the heap object of a device variable, or the
temporary of a function that is running. -/
inductive Place where
  | var (i : Nat)
  | pointee (d : Nat)
  | temp
  deriving DecidableEq

structure World where
  objs : Place → Option Obj
  /-- The live device variables. -/
  devices : Nat → Bool
  /-- The descriptors of other code. -/
  foreign : Finset Int
  os : Os

namespace World

/-- No objects; the descriptors that are open belong to other code. -/
def start (opened : Finset Int) (errno : Nat) : World :=
  ⟨fun _ => none, fun _ => false, opened, ⟨opened, errno, []⟩⟩

def put (w : World) (p : Place) (o : Option Obj) : World :=
  { w with objs := Function.update w.objs p o }

/-- The constructor from a handle, for a descriptor that the kernel has just returned. -/
def construct (w : World) (p : Place) (kind : Kind) (a : Alloc) (addr : HostAddress) : World :=
  let c := w.os.newFd .given (.ok a)
  { w.put p (some (.ofHandle kind ⟨c.rc⟩ addr)) with os := c.os }

/-- The members `swap`, of one class or of a class and one derived from it. -/
def swap (w : World) (p q : Place) : Option World :=
  match w.objs p, w.objs q with
  | some a, some b =>
    if a.kind.base = b.kind.base then
      let (a, b) := a.swap b
      some ((w.put p (some a)).put q (some b))
    else none
  | _, _ => none

/-- The members `close`. -/
def close (plat : Platform) (w : World) (p : Place) (r : CloseReplies) : Option World :=
  (w.objs p).map fun o =>
    let c := o.close plat w.os r
    { w.put p (some c.value) with os := c.os }

/-- The destructors of the objects, which close. -/
def destroy (plat : Platform) (w : World) (p : Place) (r : CloseReplies) : Option World :=
  (w.close plat p r).map fun w => w.put p none

/-- The move constructors: default members, and a swap with the source. -/
def moveConstruct (w : World) (p : Place) (kind : Kind) (q : Place) : Option World :=
  (w.put p (some (.default kind))).swap p q

/-- The move assignments: the source is swapped with a temporary, the target with the
temporary, and the temporary is destroyed. -/
def moveAssign (plat : Platform) (w : World) (p q : Place) (r : CloseReplies) : Option World :=
  match w.objs p with
  | none => none
  | some a =>
    ((w.put .temp (some (.default a.kind.base))).swap q .temp).bind fun w =>
      (w.swap p .temp).bind fun w => w.destroy plat .temp r

/-- The owned objects of two devices are exchanged. -/
def exchange (w : World) (p q : Place) : World := { w with objs := w.objs ∘ Equiv.swap p q }

/-- `~device`: an opened object is closed, and then the owned object is destroyed. -/
def dropDevice (plat : Platform) (w : World) (p : Place) (r r' : CloseReplies) : Option World :=
  match w.objs p with
  | none => some w
  | some o =>
    if o.opened then (w.close plat p r).bind fun w => w.destroy plat p r'
    else w.destroy plat p r'

/-- The assignment of a `unique_ptr` to itself does nothing; otherwise the object owned
before is destroyed and the other one taken over. -/
def deviceAssign (plat : Platform) (w : World) (d e : Nat) (r : CloseReplies) : Option World :=
  if d = e then some w
  else
    match w.objs (.pointee d) with
    | none => some (w.exchange (.pointee d) (.pointee e))
    | some _ => (w.destroy plat (.pointee d) r).map fun w => w.exchange (.pointee d) (.pointee e)

/-- `device::invalidate`: a swap with a null temporary, which is then destroyed. -/
def invalidate (plat : Platform) (w : World) (d : Nat) (r r' : CloseReplies) : Option World :=
  if (w.objs (.pointee d)).isSome then
    (w.exchange (.pointee d) .temp).dropDevice plat .temp r r'
  else some w

def setDevice (w : World) (d : Nat) (alive : Bool) : World :=
  { w with devices := Function.update w.devices d alive }

/-- The steps of a program; what can close a descriptor comes with the kernel's answers. -/
inductive Action where
  | default (i : Nat) (kind : Kind)
  | construct (i : Nat) (kind : Kind) (a : Alloc) (addr : HostAddress)
  | moveConstruct (i : Nat) (kind : Kind) (q : Place)
  | moveAssign (p q : Place) (r : CloseReplies)
  | swap (p q : Place)
  | close (p : Place) (r : CloseReplies)
  | destroy (i : Nat) (r : CloseReplies)
  | deviceNull (d : Nat)
  | deviceNew (d : Nat) (kind : Kind) (a : Alloc) (addr : HostAddress)
  | deviceWrap (d : Nat) (q : Place)
  | deviceMove (d e : Nat)
  | deviceAssign (d e : Nat) (r : CloseReplies)
  | deviceSwap (d e : Nat)
  | invalidate (d : Nat) (r r' : CloseReplies)
  | deviceDestroy (d : Nat) (r r' : CloseReplies)
  | foreignOpen (a : Alloc)
  | foreignClose (fd : Int)

/-- Whether there is no variable of that name yet. -/
def isFree (w : World) : Place → Bool
  | .var i => (w.objs (.var i)).isNone
  | .pointee d => !w.devices d && (w.objs (.pointee d)).isNone
  | .temp => false

def step (plat : Platform) : Machine World Action
  | w, .default i kind =>
    if w.isFree (.var i) then some (w.put (.var i) (some (.default kind))) else none
  | w, .construct i kind a addr =>
    if w.isFree (.var i) then some (w.construct (.var i) kind a addr) else none
  | w, .moveConstruct i kind q =>
    match w.objs q with
    | none => none
    | some b =>
      if w.isFree (.var i) ∧ (kind = b.kind ∨ kind = b.kind.base) then
        w.moveConstruct (.var i) kind q
      else none
  | w, .moveAssign p q r => w.moveAssign plat p q r
  | w, .swap p q => w.swap p q
  | w, .close p r => w.close plat p r
  | w, .destroy i r => w.destroy plat (.var i) r
  | w, .deviceNull d => if w.isFree (.pointee d) then some (w.setDevice d true) else none
  | w, .deviceNew d kind a addr =>
    if w.isFree (.pointee d) ∧ kind.isDevice then
      some ((w.construct (.pointee d) kind a addr).setDevice d true)
    else none
  | w, .deviceWrap d q =>
    match w.objs q with
    | none => none
    | some b =>
      if w.isFree (.pointee d) ∧ b.kind.isDevice then
        (w.moveConstruct (.pointee d) b.kind q).map fun w => w.setDevice d true
      else none
  | w, .deviceMove d e =>
    if w.isFree (.pointee d) ∧ w.devices e then
      some ((w.exchange (.pointee d) (.pointee e)).setDevice d true)
    else none
  | w, .deviceAssign d e r =>
    if w.devices d ∧ w.devices e then w.deviceAssign plat d e r else none
  | w, .deviceSwap d e =>
    if w.devices d ∧ w.devices e then some (w.exchange (.pointee d) (.pointee e)) else none
  | w, .invalidate d r r' => if w.devices d then w.invalidate plat d r r' else none
  | w, .deviceDestroy d r r' =>
    if w.devices d then (w.dropDevice plat (.pointee d) r r').map fun w => w.setDevice d false
    else none
  | w, .foreignOpen a =>
    let fd := a.pick w.os.opened
    some { w with
      foreign := insert fd w.foreign
      os := { w.os with opened := insert fd w.os.opened } }
  | w, .foreignClose fd =>
    if fd ∈ w.foreign then
      some { w with
        foreign := w.foreign.erase fd
        os := { w.os with opened := w.os.opened.erase fd } }
    else none

end World

end PfsIo
