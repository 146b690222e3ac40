import PfsIo.Network.Mail
import PfsIo.Objects.Roles

/-!
# UDP sockets in a program

Programs that make, move, swap and close objects of all classes, and whose UDP sockets write and
read datagrams over a network that loses and copies them and changes their order.

## Main definitions

* `Letter`, `Receipt` — the writes that have returned the length of their message, and the reads of
  datagrams.
* `Post.step` — the steps.
* `Post.Valid` — the invariant.

## Main results

* `Post.run_counted` — where the datagrams of the messages are.
* `Post.run_delivered` — what a read reports is the beginning of one message, which was written to
  the address that is read.
-/

namespace PfsIo

open Library Udp

/-- A message whose write has returned its length; `dest` is the address given to `write_to`. -/
structure Letter where
  packet : Packet
  role : Role
  dest : Option HostAddress

/-- A datagram that was read, through a socket bound to `addr`. -/
structure Receipt where
  packet : Packet
  role : Role
  addr : Bytes
  n : Nat
  rc : Int
  bytes : Bytes

structure Post where
  world : World
  mail : Mail
  role : Int → Role
  letters : List Letter
  copied : List Packet
  receipts : List Receipt

namespace Post

open World

def start (opened : Finset Int) (errno : Nat) : Post :=
  ⟨World.start opened errno, .start, fun _ => .other, [], [], []⟩

inductive Action where
  | program (a : Program.Action)
  /-- `write`, or `write_to` the address `dest`; `source` is for a socket that is not bound. -/
  | write (p : Place) (message : Bytes) (dest : Option HostAddress) (source : Bytes) (errno : Nat)
      (ec : ErrorCode) (replies : List Reply)
  | arrive (i : Nat) (fd : Int) (copy : Bool)
  | drop (i : Nat)
  /-- `read`, or `read_from` with the variable `into`, of a datagram. -/
  | read (p : Place) (n : Nat) (into : Option HostAddress) (source : Bytes) (errno : Nat)
      (ec : ErrorCode)
  /-- The same, when `recvfrom` fails. -/
  | readError (p : Place) (n : Nat) (into : Option HostAddress) (e : ℕ+) (errno : Nat)
      (ec : ErrorCode)

/-- The open UDP socket at a place. -/
def udpAt (s : Post) (p : Place) : Option Obj :=
  (s.world.objs p).filter fun o => o.kind.base = .udpSocket ∧ o.opened

/-- `udp_socket::write` and `udp_socket::write_to`. -/
def write (plat : Platform) (s : Post) (o : Obj) (message : Bytes) (dest : Option HostAddress)
    (source : Bytes) (errno : Nat) (ec : ErrorCode) (replies : List Reply) : Option Post :=
  (Udp.write plat o.h (dest.getD o.addr) message.length errno ec replies).map fun report =>
    { s with
      mail := s.mail.post o.h.fd source (sentBy message replies report)
      letters := if report.result.rc = message.length
        then s.letters ++
          [⟨⟨o.h.fd, (dest.getD o.addr).bytes, message⟩, s.role o.h.fd, dest⟩]
        else s.letters }

/-- The member `_addr` is what `udp::read` has left of it. -/
def storeAddr (w : World) (p : Place) (o : Obj) (into : Option HostAddress)
    (paddr : HostAddress) : World :=
  if into.isNone then w.put p (some { o with addr := paddr }) else w

/-- `udp_socket::read` and `udp_socket::read_from`, with the answer of `recvfrom`. -/
def receive (plat : Platform) (w : World) (p : Place) (o : Obj) (n : Nat)
    (into : Option HostAddress) (reply : Except ℕ+ (Bytes × Bytes)) (errno : Nat)
    (ec : ErrorCode) : ReadResult × World :=
  let r := Udp.read plat (into.getD o.addr) n reply errno ec
  (r.1, storeAddr w p o into r.2)

def step (plat : Platform) (reaches : Bytes → Bytes → Bool) : Machine Post Action
  | s, .program a =>
    (Program.step plat s.world a).bind fun w =>
      (Machine.run Mail.next s.mail (callsSince s.world.os w.os)).map fun mail =>
        { s with
          world := w
          mail := mail
          role := Program.relabel (FactoryCall.role s.role) s.role w (Program.callOf s.world a) }
  | s, .write p message dest source errno ec replies =>
    (s.udpAt p).bind fun o =>
      if message.length ≤ intMax then s.write plat o message dest source errno ec replies
      else none
  | s, .arrive i fd copy =>
    (s.mail.arrive reaches i fd copy).map fun r =>
      { s with mail := r.2, copied := if copy then s.copied ++ [r.1] else s.copied }
  | s, .drop i => (s.mail.drop i).map fun mail => { s with mail := mail }
  | s, .read p n into source errno ec =>
    (s.udpAt p).bind fun o => (s.mail.bound o.h.fd).bind fun addr =>
      (s.mail.take o.h.fd).map fun (packet, mail) =>
        let r := receive plat s.world p o n into (.ok (packet.payload, source)) errno ec
        { s with
          world := r.2
          mail := mail
          receipts := s.receipts ++
            [⟨packet, s.role o.h.fd, addr, n, r.1.rc, r.1.bytes⟩] }
  | s, .readError p n into e errno ec =>
    (s.udpAt p).map fun o =>
      { s with world := (receive plat s.world p o n into (.error e) errno ec).2 }

/-- The messages that are datagrams: those that are not empty. -/
def sent (s : Post) : List Packet := (s.letters.map Letter.packet).filter fun p => p.payload ≠ []

/-- The message of a socket made for an address goes to that address. -/
def Letter.Aimed (l : Letter) : Prop :=
  ∀ addr, l.role = .client addr → l.dest = none → l.packet.addr = padAddr addr

/-- A read reports the beginning of a datagram that was sent to the address of the socket, which is
the one that a server was made for. -/
structure Receipt.Right (reaches : Bytes → Bytes → Bool) (r : Receipt) : Prop where
  rc : r.rc = r.bytes.length
  bytes : r.bytes = r.packet.payload.take r.n
  reached : reaches r.packet.addr r.addr = true
  addr : ∀ addr, r.role = .server addr → r.addr = addr

structure Valid (reaches : Bytes → Bytes → Bool) (s : Post) : Prop where
  kept : Program.Kept s.world
  sorted : s.mail.Sorted reaches
  counted : ∀ p, s.sent.count p + s.copied.count p =
    s.mail.count p + (s.receipts.map Receipt.packet).count p
  copies : ∀ p ∈ s.copied, p ∈ s.sent
  served : ∀ fd addr, Program.Holds s.world .udpSocket fd → s.role fd = .server addr →
    s.mail.bound fd = some addr
  aimed : ∀ p o addr, s.world.IsUdp p o → s.role o.h.fd = .client addr →
    o.addr.bytes = padAddr addr
  letters : ∀ l ∈ s.letters, Letter.Aimed l
  receipts : ∀ r ∈ s.receipts, Receipt.Right reaches r

variable {plat : Platform} {reaches : Bytes → Bytes → Bool} {s s' : Post} {p : Place} {o : Obj}
  {os : Os} {ec : ErrorCode} {w w' : World} {role : Int → Role}

theorem udpAt_eq_some :
    s.udpAt p = some o ↔ s.world.objs p = some o ∧ o.kind.base = .udpSocket ∧ 0 ≤ o.h.fd := by
  simp [udpAt, Option.filter_eq_some_iff, Obj.opened, File.opened]

/-- A UDP socket after an object was stored: one of before, or what the call has returned without
an error. -/
theorem udp_store {q : Place} {c : Ret Obj} {device : Device} {code : ErrorCode}
    (hdevice : device = some c.value ∧ c.ec.isSet = false ∨ heldBy device = none)
    (ho : (w.store q ⟨device, code, c.os⟩).IsUdp p o) :
    w.IsUdp p o ∨ c.ec.isSet = false ∧ c.value = o ∧ p = q := by
  obtain ⟨hmem, hkind, hfd⟩ := ho
  rw [Program.objs_store, Function.update_apply] at hmem
  split at hmem
  · next hp =>
    rcases hdevice with ⟨rfl, hclear⟩ | hnone
    · exact .inr ⟨hclear, Option.some.inj hmem, hp⟩
    · obtain rfl : device = some o := hmem
      rw [heldBy_of_nonneg hfd] at hnone
      cases hnone
  · exact .inl ⟨hmem, hkind, hfd⟩

/-- The UDP sockets that a call has made. -/
def Makes (plat : Platform) (w : World) (v : Nat) (call : FactoryCall) (p : Place) (o : Obj) :
    Prop :=
  ∃ ec c, call.attempt plat w.os ec = some c ∧ c.ec.isSet = false ∧ c.value = o ∧
    p = placeOf v call

theorem udp_make {v : Nat} {call : FactoryCall} (h : Program.make plat w v call ec = some w')
    (ho : w'.IsUdp p o) : w.IsUdp p o ∨ Makes plat w v call p o := by
  obtain ⟨c, hc, -, rfl⟩ := Program.make_eq_some h
  refine (udp_store ?_ ho).imp_right fun ⟨hclear, hvalue, hp⟩ => ⟨ec, c, hc, hclear, hvalue, hp⟩
  cases hset : c.ec.isSet with
  | false => exact .inl ⟨rfl, rfl⟩
  | true => exact .inr (Program.heldBy_refused call)

theorem udp_makeOrThrow {v : Nat} {call : FactoryCall}
    (h : Program.makeOrThrow plat w v call = some w') (ho : w'.IsUdp p o) :
    w.IsUdp p o ∨ Makes plat w v call p o := by
  obtain ⟨-, h⟩ := Option.ite_none_right_eq_some.mp h
  obtain ⟨⟨result, os'⟩, hr, rfl⟩ := Option.map_eq_some_iff.mp h
  obtain ⟨c, hc, rfl, rfl⟩ := FactoryCall.orThrow_eq_some hr
  cases hset : c.ec.isSet with
  | false =>
    simp only [hset, Bool.false_eq_true, if_false] at ho
    exact (udp_store (.inl ⟨rfl, hset⟩) ho).imp_right fun ⟨hclear, hvalue, hp⟩ =>
      ⟨.clear, c, hc, hclear, hvalue, hp⟩
  | true =>
    simp only [hset, if_true] at ho
    exact .inl ⟨ho.mem, ho.kind, ho.nonneg⟩

/-- A UDP socket after a step is one of before with its handle and address, or the call of the step
has made it. -/
theorem udp_cases (hk : Program.Kept w) {a : Program.Action} (h : Program.step plat w a = some w')
    (ho : w'.IsUdp p o) : (∃ q b, w.IsUdp q b ∧ b.h = o.h ∧ b.addr = o.addr) ∨
      ∃ v call, Program.callOf w a = some (v, call) ∧ Makes plat w v call p o := by
  have hsame : w.IsUdp p o → ∃ q b, w.IsUdp q b ∧ b.h = o.h ∧ b.addr = o.addr :=
    fun ho => ⟨p, o, ho, rfl, rfl⟩
  cases a with
  | member a =>
    obtain ⟨hmember, h⟩ := Option.ite_none_right_eq_some.mp h
    refine .inl (step_carries hk.temp ?_ h p o ho)
    cases a with
    | construct | deviceNew => cases hmember
    | _ => rfl
  | make v call ec =>
    obtain ⟨-, h⟩ := Option.ite_none_right_eq_some.mp h
    exact (udp_make h ho).imp hsame fun hmakes => ⟨v, call, rfl, hmakes⟩
  | makeOrThrow v call =>
    obtain ⟨-, h⟩ := Option.ite_none_right_eq_some.mp h
    exact (udp_makeOrThrow h ho).imp hsame fun hmakes => ⟨v, call, rfl, hmakes⟩
  | accept v q reply ec =>
    obtain ⟨server, hserver, h⟩ := Option.bind_eq_some_iff.mp h
    obtain ⟨call, hcall, h⟩ := Option.bind_eq_some_iff.mp h
    exact (udp_make h ho).imp hsame fun hmakes =>
      ⟨v, call, by simp [Program.callOf, hserver, hcall], hmakes⟩

/-- What a call that makes a UDP socket for an address has put into it. -/
theorem addr_of_makes {v : Nat} {call : FactoryCall} (h : Makes plat w v call p o)
    (hkind : o.kind.base = .udpSocket) {addr : Bytes} (hrole : call.role role = .client addr) :
    o.addr.bytes = padAddr addr := by
  obtain ⟨ec, c, hc, hclear, rfl, -⟩ := h
  rw [FactoryCall.attempt_kind hc] at hkind
  cases call with
  | makeUdpSocket res servername port nonblocking inet =>
    obtain ⟨addr', hselected, haddr⟩ := FactoryCall.addr_makeUdpSocket hc hclear
    simp only [FactoryCall.role, hselected, Option.elim_some, Role.client.injEq] at hrole
    rwa [← hrole]
  | makeUdpServer res servername port nonblocking inet r =>
    simp only [FactoryCall.role] at hrole
    split at hrole
    · cases hselected : selectedAddr res servername port (inetSockType sockDgram nonblocking) <;>
        simp [hselected] at hrole
    · cases hrole
  | _ => cases hkind

/-- A call that makes a UDP server for an address has bound it. -/
theorem bound_of_attempt {call : FactoryCall} {c : Ret Obj} {m m' : Mail} {addr : Bytes}
    (hc : call.attempt plat os ec = some c) (hec : c.ec.isSet = false)
    (hrun : Machine.run Mail.next m (callsSince os c.os) = some m')
    (hkind : call.kind.base = .udpSocket) (hrole : call.role role = .server addr) :
    m'.bound c.value.h.fd = some addr := by
  cases call with
  | makeUdpServer res servername port nonblocking inet r =>
    simp only [FactoryCall.role] at hrole
    split at hrole
    · next hset =>
      obtain ⟨calls, addr', hselected, hcalls⟩ := FactoryCall.calls_makeUdpServer hset hc hec
      simp only [hselected, Option.elim_some, Role.server.injEq] at hrole
      rw [← hrole]
      exact Mail.bound_run_bind (hcalls ▸ hrun)
    · cases hrole
  | makeUdpSocket res servername port nonblocking inet =>
    simp only [FactoryCall.role] at hrole
    cases hselected : selectedAddr res servername port (inetSockType sockDgram nonblocking) <;>
      simp [hselected] at hrole
  | _ => cases hkind

theorem Valid.program (hs : Valid reaches s) {a : Program.Action} {m : Mail}
    (h : Program.step plat s.world a = some w)
    (hrun : Machine.run Mail.next s.mail (callsSince s.world.os w.os) = some m) :
    Valid reaches { s with
      world := w
      mail := m
      role := Program.relabel (FactoryCall.role s.role) s.role w (Program.callOf s.world a) } := by
  refine ⟨(hs.kept.step h).kept, hs.sorted.run hrun, fun p => ?_, hs.copies, ?_, ?_, hs.letters,
    hs.receipts⟩
  · rw [Mail.count_run hrun]
    exact hs.counted p
  · intro fd addr hfd hrole
    rcases Program.step_cases hs.kept h (FactoryCall.role s.role) s.role hfd with
      ⟨hold, hspares, heq⟩ | ⟨-, v, call, ec, c, -, hkind, hc, hec, rfl, hos, heq⟩
    · rw [Mail.bound_run hspares hrun]
      exact hs.served fd addr hold (heq.symm.trans hrole)
    · exact bound_of_attempt hc hec (hos ▸ hrun) hkind.symm (heq.symm.trans hrole)
  · intro p o addr ho hrole
    rcases udp_cases hs.kept h ho with ⟨q, b, hb, hh, ha⟩ | ⟨v, call, hcall, hmakes⟩
    · have hheld : Program.Holds w .udpSocket o.h.fd := ⟨p, o, ho.mem, ho.nonneg, rfl, ho.kind⟩
      have hbefore : Program.Holds s.world .udpSocket o.h.fd :=
        ⟨q, b, hb.mem, ho.nonneg, by rw [hh], hb.kind⟩
      rcases Program.step_cases hs.kept h (FactoryCall.role s.role) s.role hheld with
        ⟨-, -, heq⟩ | ⟨hfresh, -⟩
      · rw [← ha]
        exact hs.aimed q b addr hb (hh ▸ heq.symm.trans hrole)
      · exact absurd (Program.opened_of_held hs.kept.sound hbefore.held) hfresh
    · have hnew : heldBy (w.objs (placeOf v call)) = some o.h.fd := by
        obtain ⟨ec, c, -, -, -, hp⟩ := hmakes
        rw [← hp, ho.mem, heldBy_of_nonneg ho.nonneg]
      have heq : Program.relabel (FactoryCall.role s.role) s.role w (some (v, call)) o.h.fd =
          call.role s.role := Program.relabel_of_eq hnew
      simp only [hcall] at hrole
      exact addr_of_makes hmakes ho.kind (heq.symm.trans hrole)

/-- A write puts its message into the mail once, or nothing if it has failed or is empty. -/
theorem sent_write {message : Bytes} {dest : Option HostAddress} {source : Bytes} {errno : Nat}
    {replies : List Reply} (hlen : message.length ≤ intMax)
    (h : s.write plat o message dest source errno ec replies = some s') :
    ∃ packets, s'.mail = s.mail.post o.h.fd source packets ∧ s'.sent = s.sent ++ packets := by
  obtain ⟨report, hw, rfl⟩ := Option.map_eq_some_iff.mp h
  obtain ⟨-, hsent⟩ := sentBy_of_write hlen hw
  refine ⟨sentBy message replies report, rfl, ?_⟩
  rw [hsent]
  by_cases hrc : report.result.rc = message.length
  · by_cases hm : message = [] <;> simp [sent, hrc, hm]
  · simp [sent, hrc]

theorem Valid.write (hs : Valid reaches s) {message : Bytes} {dest : Option HostAddress}
    {source : Bytes} {errno : Nat} {replies : List Reply} (ho : s.udpAt p = some o)
    (hlen : message.length ≤ intMax)
    (h : s.write plat o message dest source errno ec replies = some s') : Valid reaches s' := by
  obtain ⟨hmem, hkind, hfd⟩ := udpAt_eq_some.mp ho
  obtain ⟨packets, hmail, hsent⟩ := sent_write hlen h
  obtain ⟨report, hw, rfl⟩ := Option.map_eq_some_iff.mp h
  refine ⟨hs.kept, ?_, fun p => ?_, fun p hp => ?_, fun fd addr hheld hrole => ?_, hs.aimed, ?_,
    hs.receipts⟩
  · rw [hmail]
    exact hs.sorted.post o.h.fd source packets
  · have hcounted := hs.counted p
    rw [hmail, hsent, List.count_append, Mail.count_post]
    simp only
    omega
  · rw [hsent]
    exact List.mem_append_left packets (hs.copies p hp)
  · rw [hmail]
    exact Mail.bound_post (hs.served fd addr hheld hrole) o.h.fd
  · intro l hl
    simp only at hl
    split at hl
    · rcases List.mem_append.mp hl with hl | hl
      · exact hs.letters l hl
      · obtain rfl := List.mem_singleton.mp hl
        rintro addr hrole rfl
        exact hs.aimed p o addr ⟨hmem, hkind, hfd⟩ hrole
    · exact hs.letters l hl

/-- What is in the mail or was read is a message, even if it is a copy. -/
theorem Valid.mem_sent (hs : Valid reaches s) {packet : Packet}
    (h : 0 < s.mail.count packet ∨ packet ∈ s.receipts.map Receipt.packet) : packet ∈ s.sent := by
  rw [← List.count_pos_iff] at h
  have hcounted := hs.counted packet
  rcases Nat.eq_zero_or_pos (s.sent.count packet) with hzero | hsent
  · exact hs.copies packet (List.count_pos_iff.mp (by omega))
  · exact List.count_pos_iff.mp hsent

theorem Valid.arrive (hs : Valid reaches s) {i : Nat} {fd : Int} {copy : Bool} {packet : Packet}
    {m : Mail} (h : s.mail.arrive reaches i fd copy = some (packet, m)) :
    Valid reaches { s with
      mail := m, copied := if copy then s.copied ++ [packet] else s.copied } := by
  have hcount := Mail.count_arrive h
  have hsorted := hs.sorted.arrive h
  obtain ⟨addr, hpacket, -, -, rfl⟩ := Mail.arrive_eq_some h
  have hsent : packet ∈ s.sent := by
    have hflying : 0 < s.mail.flying.count packet :=
      List.count_pos_iff.mpr (List.mem_of_getElem? hpacket)
    refine hs.mem_sent (.inl ?_)
    rw [Mail.count]
    omega
  refine ⟨hs.kept, hsorted, fun p => ?_, fun p hp => ?_, hs.served, hs.aimed, hs.letters,
    hs.receipts⟩
  · have hcounted := hs.counted p
    simp only [hcount p]
    cases copy with
    | true =>
      simp only [if_true, List.count_append]
      simp only [sent] at hcounted ⊢
      omega
    | false => simpa [sent] using hcounted
  · cases copy with
    | true =>
      rcases List.mem_append.mp hp with hp | hp
      · exact hs.copies p hp
      · obtain rfl := List.mem_singleton.mp hp
        exact hsent
    | false => exact hs.copies p hp

theorem receive_world (ho : s.world.objs p = some o) {n : Nat} {into : Option HostAddress}
    {reply : Except ℕ+ (Bytes × Bytes)} {errno : Nat} :
    (receive plat s.world p o n into reply errno ec).2 = s.world := by
  simp only [receive, storeAddr, Udp.read_addr]
  cases into with
  | none => simp [World.put, ← ho]
  | some addr => rfl

/-- With one code for would-block, a read of a datagram reports what it has stored of it. -/
theorem receive_result (heq : plat.eagain = plat.ewouldblock) (w : World) (p : Place) (o : Obj)
    (n : Nat) (into : Option HostAddress) (payload source : Bytes) (errno : Nat)
    (ec : ErrorCode) :
    let r := (receive plat w p o n into (.ok (payload, source)) errno ec).1
    r.bytes = payload.take n ∧ r.rc = r.bytes.length := by
  simp only [receive, Udp.read, Except.map, Socket.read_ok]
  exact ⟨trivial, if_neg fun hstale => hstale.1 heq⟩

theorem Valid.read (hs : Valid reaches s) (heq : plat.eagain = plat.ewouldblock) {n : Nat}
    {into : Option HostAddress} {source : Bytes} {errno : Nat} (ho : s.udpAt p = some o)
    {addr : Bytes} (haddr : s.mail.bound o.h.fd = some addr) {packet : Packet} {m : Mail}
    (h : s.mail.take o.h.fd = some (packet, m)) :
    let r := receive plat s.world p o n into (.ok (packet.payload, source)) errno ec
    Valid reaches { s with
      world := r.2
      mail := m
      receipts := s.receipts ++ [⟨packet, s.role o.h.fd, addr, n, r.1.rc, r.1.bytes⟩] } := by
  intro r
  obtain ⟨hmem, hkind, hfd⟩ := udpAt_eq_some.mp ho
  have hworld : r.2 = s.world := receive_world hmem
  have hresult : r.1.bytes = packet.payload.take n ∧ r.1.rc = r.1.bytes.length :=
    receive_result heq s.world p o n into packet.payload source errno ec
  obtain ⟨hsorted, addr', haddr', hreaches⟩ := hs.sorted.take h
  obtain rfl := Option.some.inj (haddr'.symm.trans haddr)
  have hcount := Mail.count_take h
  obtain ⟨before, after, -, rfl⟩ := Mail.take_eq_some h
  refine ⟨hworld ▸ hs.kept, hsorted, fun q => ?_, hs.copies, ?_, ?_, hs.letters, fun x hx => ?_⟩
  · have hcounted := hs.counted q
    rw [hcount q] at hcounted
    simp only [List.map_append, List.map_cons, List.map_nil, List.count_append]
    simp only [sent] at hcounted ⊢
    omega
  · rw [hworld]
    exact hs.served
  · rw [hworld]
    exact hs.aimed
  · rcases List.mem_append.mp hx with hx | hx
    · exact hs.receipts x hx
    · obtain rfl := List.mem_singleton.mp hx
      refine ⟨hresult.2, hresult.1, hreaches, fun addr hrole => ?_⟩
      have hbound := hs.served _ addr ⟨p, o, hmem, hfd, rfl, hkind⟩ hrole
      exact Option.some.inj (haddr.symm.trans hbound)

theorem Valid.step (hs : Valid reaches s) (heq : plat.eagain = plat.ewouldblock) {a : Action}
    (h : step plat reaches s a = some s') : Valid reaches s' := by
  cases a with
  | program a =>
    obtain ⟨w, hw, h⟩ := Option.bind_eq_some_iff.mp h
    obtain ⟨m, hm, rfl⟩ := Option.map_eq_some_iff.mp h
    exact hs.program hw hm
  | write p message dest source errno ec replies =>
    obtain ⟨o, ho, h⟩ := Option.bind_eq_some_iff.mp h
    obtain ⟨hlen, h⟩ := Option.ite_none_right_eq_some.mp h
    exact hs.write ho hlen h
  | arrive i fd copy =>
    obtain ⟨⟨packet, m⟩, hm, rfl⟩ := Option.map_eq_some_iff.mp h
    exact hs.arrive hm
  | drop i =>
    obtain ⟨m, hm, rfl⟩ := Option.map_eq_some_iff.mp h
    refine ⟨hs.kept, hs.sorted.drop hm, fun p => ?_, hs.copies, ?_, hs.aimed, hs.letters,
      hs.receipts⟩
    · rw [Mail.count_drop hm]
      exact hs.counted p
    · obtain ⟨packet, -, rfl⟩ := Option.map_eq_some_iff.mp hm
      exact hs.served
  | read p n into source errno ec =>
    obtain ⟨o, ho, h⟩ := Option.bind_eq_some_iff.mp h
    obtain ⟨addr, haddr, h⟩ := Option.bind_eq_some_iff.mp h
    obtain ⟨⟨packet, m⟩, hm, rfl⟩ := Option.map_eq_some_iff.mp h
    exact hs.read heq ho haddr hm
  | readError p n into e errno ec =>
    obtain ⟨o, ho, rfl⟩ := Option.map_eq_some_iff.mp h
    rw [receive_world (udpAt_eq_some.mp ho).1]
    exact hs

theorem Valid.start (reaches : Bytes → Bytes → Bool) (opened : Finset Int) (errno : Nat) :
    Valid reaches (Post.start opened errno) := by
  refine ⟨.start opened errno, by rintro q ⟨⟩, fun _ => rfl, by rintro p ⟨⟩, ?_, ?_,
    by rintro l ⟨⟩, by rintro r ⟨⟩⟩
  · rintro fd addr - ⟨⟩
  · rintro p o addr - ⟨⟩

theorem Valid.run (heq : plat.eagain = plat.ewouldblock) {opened : Finset Int} {errno : Nat}
    {actions : List Action}
    (h : Machine.run (Post.step plat reaches) (Post.start opened errno) actions = some s) :
    Valid reaches s :=
  Machine.run_keeps (fun _ _ _ hs hst => hs.step heq hst) (.start reaches opened errno) h

/-- In every state that a program reaches, each read of a datagram has returned the number of bytes
that it has stored, which are the first ones of the datagram; and each datagram was read as often as
the messages that it is and the copies that the network has made of it are more than those that
still fly or wait, or were lost: every message that is not empty is one datagram, nothing else is
one, and no read returns a datagram that another has returned. -/
theorem run_counted (plat : Platform) (heq : plat.eagain = plat.ewouldblock)
    (reaches : Bytes → Bytes → Bool) (opened : Finset Int) (errno : Nat) (actions : List Action)
    (s : Post) (hrun : Machine.run (step plat reaches) (start opened errno) actions = some s) :
    (∀ r ∈ s.receipts, r.rc = r.bytes.length ∧ r.bytes = r.packet.payload.take r.n) ∧
      ∀ p : Packet,
        ((s.letters.map Letter.packet).filter fun p => p.payload ≠ []).count p +
            s.copied.count p =
          s.mail.flying.count p + (s.mail.queued.map Prod.snd).count p + s.mail.lost.count p +
            (s.receipts.map Receipt.packet).count p := by
  have hs := Valid.run heq hrun
  exact ⟨fun r hr => ⟨(hs.receipts r hr).rc, (hs.receipts r hr).bytes⟩, hs.counted⟩

/-- Two messages to a server: a copy of the second one arrives and the first one is lost, the writer
is moved, and the server reads. -/
def session : List Action :=
  [.program (.make 0 (.makeUdpServer threeResolver dotted 80 false ⟨[.ok (.prefer 4)], .ok ()⟩
      {}) .clear),
    .program (.make 1 (.makeUdpSocket threeResolver dotted 80 false
      ⟨[.ok (.prefer 5)], .ok ()⟩) .clear),
    .write (.pointee 1) [1, 2] none [7] 0 .clear [.ok ()],
    .write (.pointee 1) [3] none [7] 0 .clear [.ok ()],
    .arrive 1 4 true, .drop 0, .program (.member (.deviceMove 2 1)),
    .read (.var 0) 8 none [7] 0 .clear]

/-- Addresses that have the same port and host. -/
def sameHost (addr addr' : Bytes) : Bool := addr.take 8 = addr'.take 8

/-- The message of the session that is read. -/
def second : Packet := ⟨5, padAddr (sockaddrIn 80 [1, 0, 0, 1]), [3]⟩

theorem run_counted_session :
    ∃ s, Machine.run (step .linux sameHost) (start ∅ 0) session = some s ∧
      s.receipts.map Receipt.packet = [second] ∧
      (∀ r ∈ s.receipts, r.rc = r.bytes.length ∧ r.bytes = r.packet.payload.take r.n) ∧
      ∀ p : Packet,
        ((s.letters.map Letter.packet).filter fun p => p.payload ≠ []).count p +
            s.copied.count p =
          s.mail.flying.count p + (s.mail.queued.map Prod.snd).count p + s.mail.lost.count p +
            (s.receipts.map Receipt.packet).count p :=
  ⟨_, rfl, rfl, run_counted .linux rfl sameHost ∅ 0 session _ rfl⟩

/-- In every state that a program reaches, each read of a datagram has reported the beginning of the
message of one write, which has returned the length of the message, and was addressed to the socket
that was read: when the reader was made as a server for an address, with a call of `setsockopt` that
succeeded, and the writer for another one, the second reaches the first. -/
theorem run_delivered (plat : Platform) (heq : plat.eagain = plat.ewouldblock)
    (reaches : Bytes → Bytes → Bool) (opened : Finset Int) (errno : Nat) (actions : List Action)
    (s : Post) (hrun : Machine.run (step plat reaches) (start opened errno) actions = some s)
    (r : Receipt) (hr : r ∈ s.receipts) :
    r.rc = r.bytes.length ∧ ∃ l ∈ s.letters, l.packet.payload ≠ [] ∧
      r.bytes = l.packet.payload.take r.n ∧ reaches l.packet.addr r.addr = true ∧
      ∀ addr addr', r.role = .server addr → l.role = .client addr' → l.dest = none →
        reaches (padAddr addr') addr = true := by
  have hs := Valid.run heq hrun
  obtain ⟨hrc, hbytes, hreaches, haddr⟩ := hs.receipts r hr
  have hsent : r.packet ∈ s.sent := hs.mem_sent (.inr (List.mem_map_of_mem hr))
  obtain ⟨hmem, hne⟩ := List.mem_filter.mp hsent
  obtain ⟨l, hl, heq⟩ := List.mem_map.mp hmem
  refine ⟨hrc, l, hl, ?_, by rw [heq, hbytes], by rw [heq, hreaches], ?_⟩
  · rw [heq]
    simpa using hne
  · intro addr addr' hserver hclient hdest
    rw [← hs.letters l hl addr' hclient hdest, heq, ← haddr addr hserver]
    exact hreaches

theorem run_delivered_session :
    ∃ s, Machine.run (step .linux sameHost) (start ∅ 0) session = some s ∧
      ∃ r ∈ s.receipts, r.bytes = [3] ∧ r.rc = r.bytes.length ∧ ∃ l ∈ s.letters,
        l.packet.payload ≠ [] ∧ r.bytes = l.packet.payload.take r.n ∧
        sameHost l.packet.addr r.addr = true ∧
        ∀ addr addr', r.role = .server addr → l.role = .client addr' → l.dest = none →
          sameHost (padAddr addr') addr = true :=
  ⟨_, rfl, _, List.mem_singleton_self _, rfl,
    run_delivered .linux rfl sameHost ∅ 0 session _ rfl _ (List.mem_singleton_self _)⟩

end Post

end PfsIo
