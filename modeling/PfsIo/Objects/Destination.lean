import PfsIo.Inet.Descriptors
import PfsIo.Objects.Ownership

/-!
# Destinations of UDP sockets

Programs whose UDP sockets are made by `make_udp_socket` and that read and write
datagrams. For each descriptor the address is kept that was resolved when it was opened.

## Main results

* `World.step_carries` — handle and address of a UDP socket stay together.
* `UdpWorld.run_destinations` — every datagram of `write` goes to the address that was
  resolved for the descriptor.
-/

namespace PfsIo

open Library

namespace World

variable {plat : Platform} {w w' w'' : World} {p q : Place} {r r' : CloseReplies}

/-- An opened UDP socket of a program. -/
structure IsUdp (w : World) (p : Place) (o : Obj) : Prop where
  mem : w.objs p = some o
  kind : o.kind.base = .udpSocket
  nonneg : 0 ≤ o.h.fd

/-- Each opened UDP socket after a step is one of before, with its handle and address. -/
def Carries (w w' : World) : Prop :=
  ∀ p o', w'.IsUdp p o' → ∃ q o, w.IsUdp q o ∧ o.h = o'.h ∧ o.addr = o'.addr

theorem Carries.refl (w : World) : Carries w w := fun p o h => ⟨p, o, h, rfl, rfl⟩

theorem Carries.trans (h : Carries w w') (h' : Carries w' w'') : Carries w w'' := by
  intro p o'' ho''
  obtain ⟨q, o', ho', hh', ha'⟩ := h' p o'' ho''
  obtain ⟨x, o, ho, hh, ha⟩ := h q o' ho'
  exact ⟨x, o, ho, hh.trans hh', ha.trans ha'⟩

/-- A change of one place that puts no opened UDP socket there. -/
theorem carries_put {o : Option Obj}
    (h : ∀ a, o = some a → a.kind.base = .udpSocket → ¬ 0 ≤ a.h.fd) : Carries w (w.put p o) := by
  intro q o' ho'
  by_cases hq : q = p
  · subst hq
    have hmem : o = some o' := by simpa [put] using ho'.mem
    exact absurd ho'.nonneg (h o' hmem ho'.kind)
  · exact ⟨q, o', ⟨by simpa [put, hq] using ho'.mem, ho'.kind, ho'.nonneg⟩, rfl, rfl⟩

theorem carries_of_objs (h : w'.objs = w.objs) : Carries w w' := by
  intro p o ho
  exact ⟨p, o, ⟨h ▸ ho.mem, ho.kind, ho.nonneg⟩, rfl, rfl⟩

theorem carries_exchange (w : World) (p q : Place) : Carries w (w.exchange p q) := by
  intro x o ho
  exact ⟨Equiv.swap p q x, o, ⟨ho.mem, ho.kind, ho.nonneg⟩, rfl, rfl⟩

theorem swap_of_udp {a b : Obj} (h : a.kind.base = .udpSocket) :
    a.swap b = ({ a with h := b.h, addr := b.addr }, { b with h := a.h, addr := a.addr }) := by
  simp [Obj.swap, h]

theorem swap_kind (a b : Obj) : (a.swap b).1.kind = a.kind ∧ (a.swap b).2.kind = b.kind := by
  unfold Obj.swap
  by_cases h : a.kind.base = .udpSocket <;> simp [h]

theorem carries_swap (h : w.swap p q = some w') : Carries w w' := by
  obtain ⟨a, b, ha, hb, hkind, rfl⟩ := swap_eq_some h
  intro x o ho
  obtain ⟨hmem, hudp, hnonneg⟩ := ho
  by_cases hxq : x = q
  · subst hxq
    have heq : (a.swap b).2 = o := by simpa [put] using hmem
    have hbase : a.kind.base = .udpSocket := by rw [hkind, ← (swap_kind a b).2, heq, hudp]
    rw [swap_of_udp hbase] at heq
    subst heq
    exact ⟨p, a, ⟨ha, hbase, hnonneg⟩, rfl, rfl⟩
  · by_cases hxp : x = p
    · subst hxp
      have heq : (a.swap b).1 = o := by simpa [put, hxq] using hmem
      have hbase : a.kind.base = .udpSocket := by rw [← (swap_kind a b).1, heq, hudp]
      rw [swap_of_udp hbase] at heq
      subst heq
      exact ⟨q, b, ⟨hb, hkind ▸ hbase, hnonneg⟩, rfl, rfl⟩
    · exact ⟨x, o, ⟨by simpa [put, hxq, hxp] using hmem, hudp, hnonneg⟩, rfl, rfl⟩

theorem carries_close (h : w.close plat p r = some w') : Carries w w' := by
  obtain ⟨o, -, rfl⟩ := close_eq_some h
  have hhandle := (Obj.closeOf_closes o.kind plat o.h w.os r).handle
  refine .trans (carries_put ?_) (carries_of_objs rfl)
  intro a ha _
  obtain rfl := Option.some.inj ha
  simp [hhandle]

theorem carries_none (w : World) (p : Place) : Carries w (w.put p none) := by
  apply carries_put
  intro a ha
  cases ha

theorem carries_default (w : World) (p : Place) (kind : Kind) :
    Carries w (w.put p (some (.default kind))) := by
  apply carries_put
  intro a ha _
  obtain rfl := Option.some.inj ha
  simp [Obj.default]

/-- Whether a step constructs a UDP socket from a descriptor. -/
def Action.makesUdp : Action → Bool
  | .construct _ kind _ _ | .deviceNew _ kind _ _ => decide (kind.base = .udpSocket)
  | _ => false

theorem carries_construct {kind : Kind} (hkind : kind.base ≠ .udpSocket) (w : World) (p : Place)
    (a : Alloc) (addr : HostAddress) : Carries w (w.construct p kind a addr) := by
  refine .trans (carries_put ?_) (carries_of_objs rfl)
  intro b hb hbase
  obtain rfl := Option.some.inj hb
  exact absurd hbase hkind

theorem piece_carries {kinds : Kind → Prop} (hkinds : ∀ kind, kinds kind → kind.base ≠ .udpSocket)
    (h : Piece plat kinds w w') : Carries w w' := by
  cases h with
  | default p kind _ => exact carries_default w p kind
  | construct p kind a addr _ hkind => exact carries_construct (hkinds kind hkind) w p a addr
  | swap p q h => exact carries_swap h
  | close p r h => exact carries_close h
  | remove p _ _ _ => exact carries_none w p
  | exchange p q => exact carries_exchange w p q
  | setDevice d alive => exact carries_of_objs rfl
  | foreignOpen a => exact carries_of_objs rfl
  | foreignClose fd _ => exact carries_of_objs rfl

theorem Action.constructs_of_not_makesUdp {a : Action} (ha : a.makesUdp = false) {kind : Kind}
    (h : a.constructs kind) : kind.base ≠ .udpSocket := by
  cases a with
  | construct i kind' a addr | deviceNew d kind' a addr =>
    obtain rfl : kind = kind' := h
    simpa [makesUdp] using ha
  | _ => exact h.elim

/-- A step that constructs no UDP socket keeps handles and addresses together. -/
theorem step_carries (ht : w.objs .temp = none) {a : Action} (ha : a.makesUdp = false)
    (h : step plat w a = some w') : Carries w w' :=
  have hkinds : ∀ kind, a.constructs kind → kind.base ≠ .udpSocket :=
    fun _ => Action.constructs_of_not_makesUdp ha
  (step_made ht h).pieces.rule .refl .trans (piece_carries hkinds)

end World

/-- The union of the two address structures with a resolved address in it, and zeros in the
rest. -/
def padAddr (addr : Bytes) : Bytes := addr.take 28 ++ List.replicate (28 - addr.length) 0

theorem memcpy_zero_bytes (addr : Bytes) :
    (HostAddress.zero.memcpy (addr.take (min addr.length 28))).bytes = padAddr addr := by
  have hsrc : addr.take (min addr.length 28) = addr.take 28 := by
    rw [List.take_eq_take_iff]
    omega
  have hrest : 28 - (addr.take 28).length = 28 - addr.length := by
    rw [List.length_take]
    omega
  rw [hsrc, HostAddress.bytes_zero_memcpy (List.length_take_le 28 addr), hrest, padAddr]

namespace Udp

/-- With no room for it, the sender's address is not stored. -/
theorem read_addr (plat : Platform) (paddr : HostAddress) (n : Nat)
    (reply : Except ℕ+ (Bytes × Bytes)) (errno : Nat) (ec : ErrorCode) :
    (read plat paddr n reply errno ec).2 = paddr := by
  cases reply with
  | ok received => simp [read]
  | error e => rfl

theorem write_calls {plat : Platform} {h : DeviceHandle} {paddr : HostAddress} {n errno : Nat}
    {ec : ErrorCode} {replies : List Reply} {report : WriteReport}
    (hw : write plat h paddr n errno ec replies = some report) {call : SendTo}
    (hcall : call ∈ report.calls) : call.fd = h.fd ∧ call.addr = paddr.bytes := by
  obtain ⟨l, -, rfl⟩ := Option.map_eq_some_iff.mp hw
  obtain ⟨q, -, rfl⟩ := List.mem_map.mp hcall
  exact ⟨rfl, rfl⟩

end Udp

/-- A datagram that a `write` has handed to the kernel, and the address that was resolved
for its descriptor. -/
structure Datagram where
  call : Udp.SendTo
  resolved : Option Bytes
  deriving DecidableEq

/-- Goes to the address that was resolved for its descriptor, if that is one. -/
def Datagram.Faithful (d : Datagram) : Prop :=
  0 ≤ d.call.fd → ∃ addr, d.resolved = some addr ∧ d.call.addr = padAddr addr

/-- A program with UDP sockets and address variables. -/
structure UdpWorld where
  world : World
  /-- The variables of type `host_address`. -/
  addrs : Nat → HostAddress
  /-- The address that was resolved when a descriptor was opened the last time. -/
  resolved : Int → Option Bytes
  /-- What the calls of `write` have sent. -/
  sent : List Datagram

namespace UdpWorld

/-- No objects, and address variables of any contents. -/
def start (opened : Finset Int) (errno : Nat) (addrs : Nat → HostAddress) : UdpWorld :=
  ⟨.start opened errno, addrs, fun _ => none, []⟩

/-- The UDP socket at a place. -/
def socketAt (u : UdpWorld) (p : Place) : Option Obj :=
  (u.world.objs p).filter fun o => o.kind.base = .udpSocket

def setErrno (u : UdpWorld) (errno : Nat) : UdpWorld :=
  { u with world := { u.world with os := { u.world.os with errno := errno } } }

/-- `make_udp_socket`, for a new device variable. -/
def makeUdpSocket (plat : Platform) (u : UdpWorld) (d : Nat) (res : Resolver)
    (servername : Bytes) (port : UInt16) (nonblocking : Bool) (inet : InetReplies)
    (ec : ErrorCode) : Option UdpWorld :=
  (PfsIo.makeUdpSocket plat u.world.os res servername port nonblocking inet ec).bind fun c =>
    (openInetSocket plat u.world.os res servername port sockDgram nonblocking inet ec).map
      fun i =>
        { u with
          world := { (u.world.put (.pointee d) c.value).setDevice d true with os := c.os }
          resolved :=
            if c.value.isSome then Function.update u.resolved i.value.1 (some i.value.2)
            else u.resolved }

/-- `udp_socket::read` of `n` bytes, with the object's own address as the buffer. -/
def read (plat : Platform) (u : UdpWorld) (p : Place) (n : Nat)
    (reply : Except ℕ+ (Bytes × Bytes)) (ec : ErrorCode) : Option UdpWorld :=
  (u.socketAt p).map fun o =>
    let c := Udp.read plat o.addr n reply u.world.os.errno ec
    { u with world := u.world.put p (some { o with addr := c.2 }) }.setErrno c.1.errno

/-- `udp_socket::read_from`, with a variable as the buffer. -/
def readFrom (plat : Platform) (u : UdpWorld) (p : Place) (i n : Nat)
    (reply : Except ℕ+ (Bytes × Bytes)) (ec : ErrorCode) : Option UdpWorld :=
  (u.socketAt p).map fun _ =>
    let c := Udp.read plat (u.addrs i) n reply u.world.os.errno ec
    { u with addrs := Function.update u.addrs i c.2 }.setErrno c.1.errno

/-- `udp_socket::write` of `n` bytes. -/
def write (plat : Platform) (u : UdpWorld) (p : Place) (n : Nat) (replies : List Reply)
    (ec : ErrorCode) : Option UdpWorld :=
  (u.socketAt p).bind fun o =>
    (Udp.write plat o.h o.addr n u.world.os.errno ec replies).map fun report =>
      { u with
        sent := u.sent ++ report.calls.map fun call => Datagram.mk call (u.resolved call.fd)
      }.setErrno report.result.errno

/-- `udp_socket::write_to`, to the address in a variable. -/
def writeTo (plat : Platform) (u : UdpWorld) (p : Place) (i n : Nat) (replies : List Reply)
    (ec : ErrorCode) : Option UdpWorld :=
  (u.socketAt p).bind fun o =>
    (Udp.write plat o.h (u.addrs i) n u.world.os.errno ec replies).map fun report =>
      u.setErrno report.result.errno

inductive Action where
  | program (a : World.Action)
  | makeUdpSocket (d : Nat) (res : Resolver) (servername : Bytes) (port : UInt16)
      (nonblocking : Bool) (inet : InetReplies) (ec : ErrorCode)
  | read (p : Place) (n : Nat) (reply : Except ℕ+ (Bytes × Bytes)) (ec : ErrorCode)
  | readFrom (p : Place) (i n : Nat) (reply : Except ℕ+ (Bytes × Bytes)) (ec : ErrorCode)
  | write (p : Place) (n : Nat) (replies : List Reply) (ec : ErrorCode)
  | writeTo (p : Place) (i n : Nat) (replies : List Reply) (ec : ErrorCode)

def step (plat : Platform) : Machine UdpWorld Action
  | u, .program a =>
    if a.makesUdp then none
    else (World.step plat u.world a).map fun w => { u with world := w }
  | u, .makeUdpSocket d res servername port nonblocking inet ec =>
    if u.world.isFree (.pointee d) then
      u.makeUdpSocket plat d res servername port nonblocking inet ec
    else none
  | u, .read p n reply ec => u.read plat p n reply ec
  | u, .readFrom p i n reply ec => u.readFrom plat p i n reply ec
  | u, .write p n replies ec => u.write plat p n replies ec
  | u, .writeTo p i n replies ec => u.writeTo plat p i n replies ec

/-- The socket has the address that was resolved when its descriptor was opened. -/
def Bound (u : UdpWorld) (o : Obj) : Prop :=
  ∃ addr, u.resolved o.h.fd = some addr ∧ o.addr.bytes = padAddr addr

/-- The invariant of the programs. -/
structure Intact (u : UdpWorld) : Prop where
  sound : u.world.ledger.Sound
  temp : u.world.objs .temp = none
  bound : ∀ p o, u.world.IsUdp p o → u.Bound o
  sent : ∀ d ∈ u.sent, d.Faithful

section Steps

variable {plat : Platform} {u v : UdpWorld} {p : Place}

theorem Intact.start (opened : Finset Int) (errno : Nat) (addrs : Nat → HostAddress) :
    Intact (start opened errno addrs) := by
  refine ⟨(World.Owned.start opened errno).sound, rfl, ?_, ?_⟩
  · intro p o h
    exact absurd h.mem (by simp [UdpWorld.start, World.start])
  · intro d h
    exact absurd h (by simp [UdpWorld.start])

/-- Handles and addresses stay together, and so do descriptors and resolved addresses. -/
theorem Intact.carries (h : Intact u) {w : World} (hcarries : World.Carries u.world w) :
    ∀ p o, w.IsUdp p o → u.Bound o := by
  intro p o ho
  obtain ⟨q, b, hb, hh, ha⟩ := hcarries p o ho
  obtain ⟨addr, hres, haddr⟩ := h.bound q b hb
  exact ⟨addr, hh ▸ hres, ha ▸ haddr⟩

theorem Intact.program (h : Intact u) {a : World.Action} (ha : a.makesUdp = false) {w : World}
    (hw : World.step plat u.world a = some w) : Intact { u with world := w } :=
  ⟨(World.step_refines h.temp hw).steps.sound h.sound, (World.step_made h.temp hw).temp,
    h.carries (World.step_carries h.temp ha hw), h.sent⟩

theorem Intact.setErrno (h : Intact u) (errno : Nat) : Intact (u.setErrno errno) :=
  ⟨h.sound, h.temp, h.carries (World.carries_of_objs rfl), h.sent⟩

theorem socketAt_eq_some {o : Obj} :
    u.socketAt p = some o ↔ u.world.objs p = some o ∧ o.kind.base = .udpSocket := by
  simp [socketAt, Option.filter_eq_some_iff]

/-- A datagram leaves the destination of the socket that receives it as it is. -/
theorem Intact.read (h : Intact u) {n : Nat} {reply : Except ℕ+ (Bytes × Bytes)}
    {ec : ErrorCode} (hread : u.read plat p n reply ec = some v) : Intact v := by
  obtain ⟨o, ho, rfl⟩ := Option.map_eq_some_iff.mp hread
  obtain ⟨hobj, -⟩ := socketAt_eq_some.mp ho
  apply Intact.setErrno
  have hsame : u.world.put p (some o) = u.world := by
    simp [World.put, ← hobj]
  rw [Udp.read_addr, hsame]
  exact h

theorem Intact.readFrom (h : Intact u) {i n : Nat} {reply : Except ℕ+ (Bytes × Bytes)}
    {ec : ErrorCode} (hread : u.readFrom plat p i n reply ec = some v) : Intact v := by
  obtain ⟨o, -, rfl⟩ := Option.map_eq_some_iff.mp hread
  apply Intact.setErrno
  exact ⟨h.sound, h.temp, h.carries (.refl _), h.sent⟩

/-- Every datagram of a write goes where its socket is bound to. -/
theorem Intact.write (h : Intact u) {n : Nat} {replies : List Reply} {ec : ErrorCode}
    (hwrite : u.write plat p n replies ec = some v) : Intact v := by
  obtain ⟨o, ho, hwrite⟩ := Option.bind_eq_some_iff.mp hwrite
  obtain ⟨report, hreport, rfl⟩ := Option.map_eq_some_iff.mp hwrite
  obtain ⟨hobj, hkind⟩ := socketAt_eq_some.mp ho
  apply Intact.setErrno
  refine ⟨h.sound, h.temp, h.carries (.refl _), ?_⟩
  intro d hd
  rcases List.mem_append.mp hd with hd | hd
  · exact h.sent d hd
  · obtain ⟨call, hcall, rfl⟩ := List.mem_map.mp hd
    obtain ⟨hfd, haddr⟩ := Udp.write_calls hreport hcall
    intro hnonneg
    obtain ⟨addr, hres, hbytes⟩ := h.bound p o ⟨hobj, hkind, hfd ▸ hnonneg⟩
    exact ⟨addr, hfd ▸ hres, haddr.trans hbytes⟩

theorem Intact.writeTo (h : Intact u) {i n : Nat} {replies : List Reply} {ec : ErrorCode}
    (hwrite : u.writeTo plat p i n replies ec = some v) : Intact v := by
  obtain ⟨o, -, hwrite⟩ := Option.bind_eq_some_iff.mp hwrite
  obtain ⟨report, -, rfl⟩ := Option.map_eq_some_iff.mp hwrite
  exact h.setErrno _

/-- What a successful `make_udp_socket` has made, or that it has made nothing. -/
theorem makeUdpSocket_value {os : Os} {res : Resolver} {servername : Bytes} {port : UInt16}
    {nonblocking : Bool} {inet : InetReplies} {ec : ErrorCode} {c : Ret Device}
    {i : Ret (Int × Bytes)}
    (hc : PfsIo.makeUdpSocket plat os res servername port nonblocking inet ec = some c)
    (hi : openInetSocket plat os res servername port sockDgram nonblocking inet ec = some i) :
    c.os = i.os ∧
      c.value = if i.ec.isSet then none
        else some (.ofHandle .udpSocket (handleOf i.value.1)
          (HostAddress.zero.memcpy (i.value.2.take (min i.value.2.length 28)))) := by
  simp only [PfsIo.makeUdpSocket, Udp.open_, hi, Option.map_some, Option.some.injEq] at hc
  subst hc
  exact ⟨rfl, rfl⟩

/-- A new socket on a fresh descriptor, with the address resolved for it. -/
theorem Intact.opens (h : Intact u) (d : Nat) {os : Os} {fd : Int} (hnonneg : 0 ≤ fd)
    (hfresh : fd ∉ u.world.os.opened) (hopened : os.opened = insert fd u.world.os.opened)
    {o : Obj} (hfd : o.h.fd = fd) {addr : Bytes}
    (haddr : o.addr.bytes = padAddr addr) :
    Intact { u with
      world := { (u.world.put (.pointee d) (some o)).setDevice d true with os := os }
      resolved := Function.update u.resolved fd (some addr) } := by
  subst hfd
  refine ⟨?_, ?_, ?_, h.sent⟩
  · have hlive : o.h.fd ∉ u.world.ledger.live := by simpa [World.ledger] using hfresh
    refine (h.sound.acquire (i := .pointee d) hlive).congr ?_ ?_ rfl
    · have hold := World.hold_put u.world (.pointee d) (some o)
      rwa [World.heldBy_of_nonneg hnonneg] at hold
    · simp [World.ledger, Ledger.acquire, hopened]
  · simpa [World.put, World.setDevice] using h.temp
  · intro p b hb
    by_cases hp : p = .pointee d
    · subst hp
      obtain rfl : o = b := by simpa [World.put, World.setDevice] using hb.mem
      exact ⟨addr, by simp, haddr⟩
    · have hmem : u.world.objs p = some b := by
        simpa [World.put, World.setDevice, hp] using hb.mem
      obtain ⟨addr', hres, hbytes⟩ := h.bound p b ⟨hmem, hb.kind, hb.nonneg⟩
      refine ⟨addr', ?_, hbytes⟩
      have hne : b.h.fd ≠ o.h.fd := by
        intro heq
        have hheld := World.hold_of_nonneg hmem hb.nonneg
        have halive : b.h.fd ∈ u.world.os.opened := by
          simpa [World.ledger] using h.sound.alive p _ hheld
        exact hfresh (heq ▸ halive)
      simpa [hne] using hres

theorem Intact.makeUdpSocket (h : Intact u) {d : Nat} {res : Resolver} {servername : Bytes}
    {port : UInt16} {nonblocking : Bool} {inet : InetReplies} {ec : ErrorCode}
    (hfree : u.world.isFree (.pointee d) = true)
    (hmake : u.makeUdpSocket plat d res servername port nonblocking inet ec = some v) :
    Intact v := by
  obtain ⟨c, hc, hmake⟩ := Option.bind_eq_some_iff.mp hmake
  obtain ⟨i, hi, rfl⟩ := Option.map_eq_some_iff.mp hmake
  obtain ⟨hos, hvalue⟩ := makeUdpSocket_value hc hi
  have hnone : u.world.objs (.pointee d) = none := by
    simp only [World.isFree, Bool.and_eq_true, Option.isNone_iff_eq_none] at hfree
    exact hfree.2
  cases hec : i.ec.isSet with
  | true =>
    have hopened := opened_of_isSet hi hec
    have hnull : c.value = none := by simpa [hec] using hvalue
    simp only [hnull, hos, Option.isSome_none, Bool.false_eq_true, if_false]
    have hsame : (u.world.put (.pointee d) none).objs = u.world.objs := by
      simp [World.put, ← hnone]
    refine ⟨h.sound.congr ?_ ?_ rfl, ?_, h.carries (World.carries_of_objs hsame), h.sent⟩
    · exact congrArg (fun objs p => World.heldBy (objs p)) hsame
    · simp [World.ledger, hopened]
    · exact (congrFun hsame _).trans h.temp
  | false =>
    have hdelivered := delivered_of_clear hi hec
    have hfd : (handleOf i.value.1).fd = i.value.1 := by
      rw [handleOf_of_nonneg hdelivered.nonneg]
    have hobj : c.value = some (.ofHandle .udpSocket (handleOf i.value.1)
        (HostAddress.zero.memcpy (i.value.2.take (min i.value.2.length 28)))) := by
      simpa [hec] using hvalue
    simp only [hobj, hos, Option.isSome_some, if_true]
    refine h.opens d hdelivered.nonneg hdelivered.fresh hdelivered.opened hfd ?_
    have haddr := memcpy_zero_bytes i.value.2
    simpa only [Obj.ofHandle, HostAddress.swap_eq] using haddr

end Steps

theorem Intact.step {plat : Platform} {u v : UdpWorld} {a : Action} (h : Intact u)
    (hstep : step plat u a = some v) : Intact v := by
  cases a with
  | program a =>
    simp only [UdpWorld.step] at hstep
    split at hstep
    · cases hstep
    · next ha =>
      obtain ⟨w, hw, rfl⟩ := Option.map_eq_some_iff.mp hstep
      exact h.program (by simpa using ha) hw
  | makeUdpSocket d res servername port nonblocking inet ec =>
    obtain ⟨hfree, hmake⟩ := Option.ite_none_right_eq_some.mp hstep
    exact h.makeUdpSocket hfree hmake
  | read p n reply ec => exact h.read hstep
  | readFrom p i n reply ec => exact h.readFrom hstep
  | write p n replies ec => exact h.write hstep
  | writeTo p i n replies ec => exact h.writeTo hstep

/-- Destination integrity: in every state that a program reaches, each datagram of a `write`
on an open descriptor went to the address that was resolved when that descriptor was opened,
and each opened socket has the address that was resolved for its own descriptor. -/
theorem run_destinations (plat : Platform) (opened : Finset Int) (errno : Nat)
    (addrs : Nat → HostAddress) (actions : List Action) (u : UdpWorld)
    (hrun : Machine.run (step plat) (start opened errno addrs) actions = some u) :
    (∀ d ∈ u.sent, 0 ≤ d.call.fd →
      ∃ addr, d.resolved = some addr ∧ d.call.addr = padAddr addr) ∧
    ∀ p o, u.world.IsUdp p o →
      ∃ addr, u.resolved o.h.fd = some addr ∧ o.addr.bytes = padAddr addr := by
  have h : Intact u :=
    Machine.run_keeps (fun _ _ _ hs hst => hs.step hst) (.start opened errno addrs) hrun
  exact ⟨h.sent, h.bound⟩

/-- Two sockets are made, the first receives a datagram from someone else, is moved to a
variable, exchanged with the second and written to. -/
def redirect : List Action :=
  [.makeUdpSocket 0 threeResolver dotted 80 false ⟨[.ok (.prefer 3)], .ok ()⟩ .clear,
    .makeUdpSocket 1 threeResolver [104] 80 false ⟨[.ok (.prefer 3)], .ok ()⟩ .clear,
    .read (.pointee 0) 8 (.ok ([1, 2], sockaddrIn 53 [6, 6, 6, 6])) .clear,
    .program (.moveConstruct 0 .udpSocket (.pointee 0)), .program (.swap (.var 0) (.pointee 1)),
    .write (.pointee 1) 2 [.ok ()] .clear, .program (.close (.var 0) {})]

theorem run_destinations_redirect :
    ∃ u, Machine.run (step .linux) (start ∅ 0 fun _ => .zero) redirect = some u ∧
      u.sent = [⟨⟨3, padAddr (sockaddrIn 80 [1, 0, 0, 1]), ⟨0, 2, 2⟩⟩,
        some (sockaddrIn 80 [1, 0, 0, 1])⟩] ∧
      (∀ d ∈ u.sent, 0 ≤ d.call.fd →
        ∃ addr, d.resolved = some addr ∧ d.call.addr = padAddr addr) ∧
      ∀ p o, u.world.IsUdp p o →
        ∃ addr, u.resolved o.h.fd = some addr ∧ o.addr.bytes = padAddr addr :=
  ⟨_, rfl, rfl, run_destinations .linux ∅ 0 (fun _ => .zero) redirect _ rfl⟩

end UdpWorld

end PfsIo
