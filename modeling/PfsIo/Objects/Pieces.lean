import Mathlib.Logic.Relation
import PfsIo.Objects.World

/-!
# What the steps of a program are made of

The members of the classes and of `device` are built from a few pieces: default
construction, construction from a descriptor, `swap`, `close`, the removal of a closed
object, and the exchange of owned objects. An invariant of programs is proved for the
pieces.

## Main definitions

* `Closes` — what the close functions have in common.
* `World.Piece`, `World.Pieces` — the pieces, and their sequences.
* `World.Made` — made of pieces, with no temporary left over.

## Main results

* `Obj.closeOf_closes` — the close function of each class.
* `World.step_made` — every step of a program is made of pieces.
-/

namespace PfsIo

open Library

/-- The descriptors given to objects and not closed since. -/
def outstanding (log : List Call) : Finset Int :=
  log.foldl (fun fds call =>
    match call with
    | .given fd => insert fd fds
    | .close fd _ _ => fds.erase fd
    | _ => fds) ∅

theorem outstanding_given (log : List Call) (fd : Int) :
    outstanding (log ++ [.given fd]) = insert fd (outstanding log) := by
  simp [outstanding]

theorem outstanding_close (log : List Call) (fd : Int) (wasOpen : Bool) (rc : Int) :
    outstanding (log ++ [.close fd wasOpen rc]) = (outstanding log).erase fd := by
  simp [outstanding]

/-- Calls that neither hand a descriptor to an object nor close one. -/
def Call.isNeutral : Call → Bool
  | .given _ | .close _ _ _ => false
  | _ => true

theorem outstanding_neutral (log : List Call) {call : Call} (h : call.isNeutral = true) :
    outstanding (log ++ [call]) = outstanding log := by
  cases call <;> simp_all [outstanding, Call.isNeutral]

/-- Between two states of the kernel, a neutral call or none was made. -/
structure Prepares (os os' : Os) : Prop where
  opened : os'.opened = os.opened
  log : os'.log = os.log ∨ ∃ call, call.isNeutral = true ∧ os'.log = os.log ++ [call]

theorem Prepares.outstanding_eq {os os' : Os} (h : Prepares os os') :
    outstanding os'.log = outstanding os.log := by
  rcases h.log with hlog | ⟨call, hneutral, hlog⟩
  · rw [hlog]
  · rw [hlog, outstanding_neutral _ hneutral]

theorem Prepares.mem_log {os os' : Os} (h : Prepares os os') {call : Call}
    (hcall : call.isNeutral = false) : call ∈ os'.log ↔ call ∈ os.log := by
  rcases h.log with hlog | ⟨call', hneutral, hlog⟩
  · rw [hlog]
  · have hne : call ≠ call' := by
      rintro rfl
      simp [hneutral] at hcall
    simp [hlog, hne]

/-- What the close functions have in common: they release a positive descriptor, leave the
kernel alone otherwise, and reset the handle. -/
structure Closes (h : DeviceHandle) (os : Os) (reply : Reply) (c : Ret DeviceHandle) : Prop where
  handle : c.value = ⟨-1⟩
  released : 0 < h.fd → ∃ os', Prepares os os' ∧ c.os = (os'.close h.fd reply).os
  kept : h.fd ≤ 0 → c.os = os

theorem prepares_check (os : Os) {call : Int → Call} (r : Reply)
    (h : ∀ rc, (call rc).isNeutral = true) : Prepares os (os.check call r).os :=
  ⟨Os.opened_check os call r, .inr ⟨_, h _, Os.log_check os call r⟩⟩

theorem File.close_closes (plat : Platform) (h : DeviceHandle) (os : Os) (r : CloseReplies) :
    Closes h os r.close (File.close plat h os r) := by
  by_cases hfd : h.fd > 0
  · simp only [File.close, hfd, if_true]
    exact ⟨rfl, fun _ => ⟨_, prepares_check os r.fsync fun _ => rfl, rfl⟩, fun hle => by omega⟩
  · simp only [File.close, hfd, if_false]
    exact ⟨rfl, fun hpos => absurd hpos hfd, fun _ => rfl⟩

theorem Socket.close_closes (plat : Platform) (h : DeviceHandle) (force : Bool) (os : Os)
    (r : CloseReplies) : Closes h os r.close (Socket.close plat h force os r) := by
  by_cases hfd : h.fd > 0
  · simp only [Socket.close, hfd, if_true]
    refine ⟨rfl, fun _ => ⟨_, ?_, rfl⟩, fun hle => by omega⟩
    cases force with
    | true => exact prepares_check os r.shutdown fun _ => rfl
    | false => exact ⟨rfl, .inl rfl⟩
  · simp only [Socket.close, hfd, if_false]
    exact ⟨rfl, fun hpos => absurd hpos hfd, fun _ => rfl⟩

theorem Obj.closeOf_closes (kind : Kind) (plat : Platform) (h : DeviceHandle) (os : Os)
    (r : CloseReplies) : Closes h os r.close (Obj.closeOf kind plat h os r) := by
  cases kind with
  | file => exact File.close_closes plat h os r
  | localServer | tcpServer => exact Socket.close_closes plat h false os r
  | _ => exact Socket.close_closes plat h true os r

namespace World

/-- The pieces that steps are made of, with objects constructed of certain kinds. -/
inductive Piece (plat : Platform) (kinds : Kind → Prop) : World → World → Prop where
  | default (w : World) (p : Place) (kind : Kind) : w.objs p = none →
      Piece plat kinds w (w.put p (some (.default kind)))
  | construct (w : World) (p : Place) (kind : Kind) (a : Alloc) (addr : HostAddress) :
      w.objs p = none → kinds kind → Piece plat kinds w (w.construct p kind a addr)
  | swap {w w' : World} (p q : Place) : w.swap p q = some w' → Piece plat kinds w w'
  | close {w w' : World} (p : Place) (r : CloseReplies) : w.close plat p r = some w' →
      Piece plat kinds w w'
  | remove {w : World} (p : Place) (o : Obj) : w.objs p = some o → o.h = ⟨-1⟩ →
      Piece plat kinds w (w.put p none)
  | exchange (w : World) (p q : Place) : Piece plat kinds w (w.exchange p q)
  | setDevice (w : World) (d : Nat) (alive : Bool) : Piece plat kinds w (w.setDevice d alive)
  | foreignOpen (w : World) (a : Alloc) :
      Piece plat kinds w { w with
        foreign := insert (a.pick w.os.opened) w.foreign
        os := { w.os with opened := insert (a.pick w.os.opened) w.os.opened } }
  | foreignClose (w : World) (fd : Int) : fd ∈ w.foreign →
      Piece plat kinds w { w with
        foreign := w.foreign.erase fd
        os := { w.os with opened := w.os.opened.erase fd } }

/-- The reflexive transitive closure of `Piece`. -/
abbrev Pieces (plat : Platform) (kinds : Kind → Prop) : World → World → Prop :=
  Relation.ReflTransGen (Piece plat kinds)

/-- Made of pieces; the temporary of a function is gone when the function returns. -/
structure Made (plat : Platform) (kinds : Kind → Prop) (w w' : World) : Prop where
  pieces : Pieces plat kinds w w'
  temp : w'.objs .temp = none

/-- The kinds of the objects that a step constructs from a descriptor. -/
def Action.constructs : Action → Kind → Prop
  | .construct _ kind _ _, k | .deviceNew _ kind _ _, k => k = kind
  | _, _ => False

variable {plat : Platform} {kinds : Kind → Prop} {w w' w'' : World} {p q : Place}
  {r r' : CloseReplies}

/-- A reflexive and transitive relation that holds along each piece. -/
theorem Pieces.rule {rel : World → World → Prop} (refl : ∀ w, rel w w)
    (trans : ∀ {w w' w''}, rel w w' → rel w' w'' → rel w w'')
    (piece : ∀ {w w'}, Piece plat kinds w w' → rel w w') (h : Pieces plat kinds w w') :
    rel w w' := by
  induction h with
  | refl => exact refl w
  | tail _ hpiece ih => exact trans ih (piece hpiece)

theorem swap_eq_some (h : w.swap p q = some w') :
    ∃ a b, w.objs p = some a ∧ w.objs q = some b ∧ a.kind.base = b.kind.base ∧
      w' = (w.put p (some (a.swap b).1)).put q (some (a.swap b).2) := by
  unfold swap at h
  split at h
  · next a b ha hb =>
    split at h
    · next hkind => exact ⟨a, b, ha, hb, hkind, (Option.some.inj h).symm⟩
    · cases h
  · cases h

theorem close_eq_some (h : w.close plat p r = some w') :
    ∃ o, w.objs p = some o ∧ w' =
      { w.put p (some { o with h := (Obj.closeOf o.kind plat o.h w.os r).value }) with
        os := (Obj.closeOf o.kind plat o.h w.os r).os } := by
  obtain ⟨o, ho, rfl⟩ := Option.map_eq_some_iff.mp h
  exact ⟨o, ho, rfl⟩

theorem destroy_eq_some (h : w.destroy plat p r = some w') :
    ∃ u, w.close plat p r = some u ∧ w' = u.put p none := by
  obtain ⟨u, hu, rfl⟩ := Option.map_eq_some_iff.mp h
  exact ⟨u, hu, rfl⟩

theorem objs_close (h : w.close plat p r = some w') : ∃ o, w'.objs p = some o ∧ o.h = ⟨-1⟩ := by
  obtain ⟨o, -, rfl⟩ := close_eq_some h
  have hhandle := (Obj.closeOf_closes o.kind plat o.h w.os r).handle
  exact ⟨_, Function.update_self _ _ _, hhandle⟩

theorem objs_of_isFree (h : w.isFree p = true) : w.objs p = none := by
  cases p with
  | var i => simpa [isFree] using h
  | pointee d =>
    have h' : w.devices d = false ∧ w.objs (.pointee d) = none := by simpa [isFree] using h
    exact h'.2
  | temp => cases h

theorem ne_temp_of_isFree (h : w.isFree p = true) : p ≠ .temp := by
  rintro rfl
  cases h

theorem pieces_close (h : w.close plat p r = some w') : Pieces plat kinds w w' :=
  .single (.close p r h)

theorem pieces_destroy (h : w.destroy plat p r = some w') : Pieces plat kinds w w' := by
  obtain ⟨u, hu, rfl⟩ := destroy_eq_some h
  obtain ⟨o, ho, hhandle⟩ := objs_close hu
  exact (pieces_close hu).tail (.remove p o ho hhandle)

theorem pieces_dropDevice (h : w.dropDevice plat p r r' = some w') : Pieces plat kinds w w' := by
  unfold dropDevice at h
  split at h
  · obtain rfl := Option.some.inj h
    exact .refl
  · split at h
    · obtain ⟨u, hu, h⟩ := Option.bind_eq_some_iff.mp h
      exact (pieces_close hu).trans (pieces_destroy h)
    · exact pieces_destroy h

theorem put_temp (ht : w.objs .temp = none) (hp : p ≠ .temp) (o : Option Obj) :
    (w.put p o).objs .temp = none := by
  simp [put, hp.symm, ht]

theorem close_temp (ht : w.objs .temp = none) (h : w.close plat p r = some w') :
    w'.objs .temp = none := by
  obtain ⟨o, ho, rfl⟩ := close_eq_some h
  have hp : Place.temp ≠ p := by
    rintro rfl
    simp [ht] at ho
  simp [put, hp, ht]

/-- Destroying takes the object at its place away, and leaves the others where they are. -/
theorem destroy_temp (ht : p = .temp ∨ w.objs .temp = none) (h : w.destroy plat p r = some w') :
    w'.objs .temp = none := by
  obtain ⟨u, hu, rfl⟩ := destroy_eq_some h
  by_cases hp : p = .temp
  · subst hp
    simp [put]
  · exact put_temp (close_temp (ht.resolve_left hp) hu) hp none

theorem dropDevice_temp (ht : p = .temp ∨ w.objs .temp = none)
    (h : w.dropDevice plat p r r' = some w') : w'.objs .temp = none := by
  unfold dropDevice at h
  split at h
  · next hnone =>
    obtain rfl := Option.some.inj h
    rcases ht with rfl | ht
    · exact hnone
    · exact ht
  · split at h
    · obtain ⟨u, hu, h⟩ := Option.bind_eq_some_iff.mp h
      exact destroy_temp (ht.imp_right fun ht => close_temp ht hu) h
    · exact destroy_temp ht h

theorem Made.refl (ht : w.objs .temp = none) : Made plat kinds w w := ⟨.refl, ht⟩

theorem Made.trans (h : Made plat kinds w w') (h' : Made plat kinds w' w'') :
    Made plat kinds w w'' :=
  ⟨h.pieces.trans h'.pieces, h'.temp⟩

theorem Made.setDevice (h : Made plat kinds w w') (d : Nat) (alive : Bool) :
    Made plat kinds w (w'.setDevice d alive) :=
  ⟨h.pieces.tail (.setDevice w' d alive), h.temp⟩

theorem made_default (ht : w.objs .temp = none) (hfree : w.isFree p = true) (kind : Kind) :
    Made plat kinds w (w.put p (some (.default kind))) :=
  ⟨.single (.default w p kind (objs_of_isFree hfree)), put_temp ht (ne_temp_of_isFree hfree) _⟩

theorem made_construct (ht : w.objs .temp = none) (hfree : w.isFree p = true) {kind : Kind}
    (hkind : kinds kind) (a : Alloc) (addr : HostAddress) :
    Made plat kinds w (w.construct p kind a addr) :=
  ⟨.single (.construct w p kind a addr (objs_of_isFree hfree) hkind),
    put_temp ht (ne_temp_of_isFree hfree) _⟩

theorem made_swap (ht : w.objs .temp = none) (h : w.swap p q = some w') :
    Made plat kinds w w' := by
  refine ⟨.single (.swap p q h), ?_⟩
  obtain ⟨a, b, ha, hb, -, rfl⟩ := swap_eq_some h
  have hp : Place.temp ≠ p := by
    rintro rfl
    simp [ht] at ha
  have hq : Place.temp ≠ q := by
    rintro rfl
    simp [ht] at hb
  simp [put, hp, hq, ht]

theorem made_close (ht : w.objs .temp = none) (h : w.close plat p r = some w') :
    Made plat kinds w w' :=
  ⟨pieces_close h, close_temp ht h⟩

theorem made_destroy (ht : w.objs .temp = none) (h : w.destroy plat p r = some w') :
    Made plat kinds w w' :=
  ⟨pieces_destroy h, destroy_temp (.inr ht) h⟩

theorem made_exchange (ht : w.objs .temp = none) (d e : Nat) :
    Made plat kinds w (w.exchange (.pointee d) (.pointee e)) :=
  ⟨.single (.exchange w _ _), by simp [exchange, Equiv.swap_apply_def, ht]⟩

theorem made_moveConstruct (ht : w.objs .temp = none) (hfree : w.isFree p = true) {kind : Kind}
    (h : w.moveConstruct p kind q = some w') : Made plat kinds w w' :=
  have hdefault : Made plat kinds w (w.put p (some (.default kind))) := made_default ht hfree kind
  hdefault.trans (made_swap hdefault.temp h)

/-- The temporary is constructed, swapped with both sides, and destroyed. -/
theorem made_moveAssign (ht : w.objs .temp = none) (h : w.moveAssign plat p q r = some w') :
    Made plat kinds w w' := by
  unfold moveAssign at h
  split at h
  · cases h
  · next a _ =>
    obtain ⟨u, hu, h⟩ := Option.bind_eq_some_iff.mp h
    obtain ⟨v, hv, h⟩ := Option.bind_eq_some_iff.mp h
    have hswaps : Pieces plat kinds w v :=
      .tail (.tail (.single (.default w .temp a.kind.base ht)) (.swap q .temp hu))
        (.swap p .temp hv)
    exact ⟨hswaps.trans (pieces_destroy h), destroy_temp (.inl rfl) h⟩

theorem made_dropDevice (ht : w.objs .temp = none) (h : w.dropDevice plat p r r' = some w') :
    Made plat kinds w w' :=
  ⟨pieces_dropDevice h, dropDevice_temp (.inr ht) h⟩

theorem made_deviceAssign (ht : w.objs .temp = none) {d e : Nat}
    (h : w.deviceAssign plat d e r = some w') : Made plat kinds w w' := by
  unfold deviceAssign at h
  split at h
  · obtain rfl := Option.some.inj h
    exact .refl ht
  · split at h
    · obtain rfl := Option.some.inj h
      exact made_exchange ht d e
    · obtain ⟨u, hu, rfl⟩ := Option.map_eq_some_iff.mp h
      have hdestroy : Made plat kinds w u := made_destroy ht hu
      exact hdestroy.trans (made_exchange hdestroy.temp d e)

theorem made_invalidate (ht : w.objs .temp = none) {d : Nat}
    (h : w.invalidate plat d r r' = some w') : Made plat kinds w w' := by
  unfold invalidate at h
  split at h
  · exact ⟨.head (.exchange w _ _) (pieces_dropDevice h), dropDevice_temp (.inl rfl) h⟩
  · obtain rfl := Option.some.inj h
    exact .refl ht

/-- Every step of a program is made of pieces. -/
theorem step_made (ht : w.objs .temp = none) {a : Action} (h : step plat w a = some w') :
    Made plat a.constructs w w' := by
  cases a with
  | default i kind =>
    obtain ⟨hfree, rfl⟩ := Option.ite_some_none_eq_some.mp h
    exact made_default ht hfree kind
  | construct i kind a addr =>
    obtain ⟨hfree, rfl⟩ := Option.ite_some_none_eq_some.mp h
    have hkind : (Action.construct i kind a addr).constructs kind := rfl
    exact made_construct ht hfree hkind a addr
  | moveConstruct i kind q =>
    simp only [step] at h
    split at h
    · cases h
    · obtain ⟨⟨hfree, -⟩, h⟩ := Option.ite_none_right_eq_some.mp h
      exact made_moveConstruct ht hfree h
  | moveAssign p q r => exact made_moveAssign ht h
  | swap p q => exact made_swap ht h
  | close p r => exact made_close ht h
  | destroy i r => exact made_destroy ht h
  | deviceNull d =>
    obtain ⟨-, rfl⟩ := Option.ite_some_none_eq_some.mp h
    exact (Made.refl ht).setDevice d true
  | deviceNew d kind a addr =>
    obtain ⟨⟨hfree, -⟩, rfl⟩ := Option.ite_some_none_eq_some.mp h
    have hkind : (Action.deviceNew d kind a addr).constructs kind := rfl
    exact (made_construct ht hfree hkind a addr).setDevice d true
  | deviceWrap d q =>
    simp only [step] at h
    split at h
    · cases h
    · obtain ⟨⟨hfree, -⟩, h⟩ := Option.ite_none_right_eq_some.mp h
      obtain ⟨u, hu, rfl⟩ := Option.map_eq_some_iff.mp h
      exact (made_moveConstruct ht hfree hu).setDevice d true
  | deviceMove d e =>
    obtain ⟨-, rfl⟩ := Option.ite_some_none_eq_some.mp h
    exact (made_exchange ht d e).setDevice d true
  | deviceAssign d e r =>
    obtain ⟨-, h⟩ := Option.ite_none_right_eq_some.mp h
    exact made_deviceAssign ht h
  | deviceSwap d e =>
    obtain ⟨-, rfl⟩ := Option.ite_some_none_eq_some.mp h
    exact made_exchange ht d e
  | invalidate d r r' =>
    obtain ⟨-, h⟩ := Option.ite_none_right_eq_some.mp h
    exact made_invalidate ht h
  | deviceDestroy d r r' =>
    obtain ⟨-, h⟩ := Option.ite_none_right_eq_some.mp h
    obtain ⟨u, hu, rfl⟩ := Option.map_eq_some_iff.mp h
    exact (made_dropDevice ht hu).setDevice d false
  | foreignOpen a =>
    obtain rfl := Option.some.inj h
    exact ⟨.single (.foreignOpen w a), ht⟩
  | foreignClose fd =>
    obtain ⟨hmem, rfl⟩ := Option.ite_some_none_eq_some.mp h
    exact ⟨.single (.foreignClose w fd hmem), ht⟩

end World

end PfsIo
