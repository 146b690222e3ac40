import PfsIo.Inet.Nonblocking
import PfsIo.Objects.Program

/-!
# Descriptors that a step leaves alone

What the kernel keeps for a descriptor is changed by calls about that descriptor alone. No factory
makes a call about a descriptor that was open before, and no member one about a descriptor that an
object still holds afterwards.

## Main definitions

* `Call.subject` — the descriptor that a call is about.
* `Spares` — no call is about a descriptor.
* `Acts` — calls about new descriptors only.
* `Program.Retains`, `Program.Brings` — what a member and a factory do to the objects.

## Main results

* `Spares.fold`, `Spares.run` — what is kept for a descriptor that is spared.
* `FactoryCall.attempt_acts` — no factory makes calls about other descriptors than its own.
* `Program.step_brings` — the steps of a program.
-/

namespace PfsIo

open Library

/-- The descriptor that a call is about: the one that it makes, if it does, or that it is given. -/
def Call.subject : Call → Option Int
  | .openFile _ _ _ rc | .socket _ _ _ rc | .accept _ rc => if 0 ≤ rc then some rc else none
  | .connect fd _ _ | .setReuseAddr fd _ | .bind fd _ _ | .listen fd _ _ | .shutdown fd _
  | .fsync fd _ | .close fd _ _ | .given fd => some fd
  | .unlink _ _ => none

/-- Between two states of the kernel, no call was about the descriptor. -/
def Spares (os os' : Os) (fd : Int) : Prop :=
  ∃ calls, os'.log = os.log ++ calls ∧ ∀ call ∈ calls, call.subject ≠ some fd

namespace Spares

variable {os os' os'' : Os} {fd : Int}

theorem of_log (h : os'.log = os.log) : Spares os os' fd :=
  ⟨[], by rw [h, List.append_nil], by simp⟩

theorem refl (os : Os) (fd : Int) : Spares os os fd := .of_log rfl

theorem single {call : Call} (h : os'.log = os.log ++ [call]) (hcall : call.subject ≠ some fd) :
    Spares os os' fd :=
  ⟨[call], h, fun _ hmem => List.mem_singleton.mp hmem ▸ hcall⟩

theorem trans (h : Spares os os' fd) (h' : Spares os' os'' fd) : Spares os os'' fd := by
  obtain ⟨calls, hlog, hcalls⟩ := h
  obtain ⟨calls', hlog', hcalls'⟩ := h'
  refine ⟨calls ++ calls', by rw [hlog', hlog, List.append_assoc], fun call hmem => ?_⟩
  exact (List.mem_append.mp hmem).elim (hcalls call) (hcalls' call)

/-- What is kept for each descriptor, and changed by the calls about it. -/
theorem fold {σ α : Type*} (next : σ → Call → σ) (kept : σ → Int → α)
    (hnext : ∀ s call fd, call.subject ≠ some fd → kept (next s call) fd = kept s fd)
    (h : Spares os os' fd) (s : σ) :
    kept ((callsSince os os').foldl next s) fd = kept s fd := by
  obtain ⟨calls, hlog, hcalls⟩ := h
  rw [callsSince_of_append hlog]
  clear hlog
  induction calls generalizing s with
  | nil => rfl
  | cons call calls ih =>
    obtain ⟨hcall, hcalls⟩ := List.forall_mem_cons.mp hcalls
    rw [List.foldl_cons, ih (next s call) hcalls, hnext s call fd hcall]

/-- What holds over each call about other descriptors holds over calls that spare one. -/
theorem run {σ : Type*} {next : Machine σ Call} (rel : σ → σ → Prop) (refl : ∀ s, rel s s)
    (trans : ∀ s t u, rel s t → rel t u → rel s u)
    (hnext : ∀ s call t, call.subject ≠ some fd → next s call = some t → rel s t)
    (h : Spares os os' fd) {s t : σ} (hrun : Machine.run next s (callsSince os os') = some t) :
    rel s t := by
  obtain ⟨calls, hlog, hcalls⟩ := h
  rw [callsSince_of_append hlog] at hrun
  exact Machine.run_rel rel refl trans (fun s call hmem t => hnext s call t (hcalls call hmem)) hrun

end Spares

/-- System calls that keep the descriptors of before open, and are not about them. -/
structure Acts (os os' : Os) : Prop where
  opened : os.opened ⊆ os'.opened
  spares : ∀ fd ∈ os.opened, Spares os os' fd

namespace Acts

variable {os os' : Os} {fd : Int}

theorem start (os : Os) : Acts os os := ⟨Finset.Subset.refl _, fun fd _ => .refl os fd⟩

theorem newFd (h : Acts os os') (call : Int → Call) (reply : FdReply)
    (hcall : ∀ rc, (call rc).subject = if 0 ≤ rc then some rc else none) :
    Acts os (os'.newFd call reply).os := by
  refine ⟨?_, fun fd hfd => (h.spares fd hfd).trans (.single (Os.log_newFd os' call reply) ?_)⟩
  · cases reply with
    | error e => exact h.opened
    | ok a => exact h.opened.trans (Finset.subset_insert _ _)
  · rw [hcall]
    cases reply with
    | error e => simp
    | ok a =>
      have hne : a.pick os'.opened ≠ fd := by
        rintro rfl
        exact a.fresh _ (h.opened hfd)
      simp [a.nonneg, hne]

theorem check (h : Acts os os') (call : Int → Call) (reply : Reply)
    (hcall : ∀ rc, ∀ fd ∈ os.opened, (call rc).subject ≠ some fd) :
    Acts os (os'.check call reply).os := by
  refine ⟨?_, fun fd hfd => ?_⟩
  · rw [Os.opened_check]
    exact h.opened
  · exact (h.spares fd hfd).trans (.single (Os.log_check os' call reply) (hcall _ fd hfd))

/-- A call about a descriptor that was not open. -/
theorem checkFd (h : Acts os os') (hfresh : fd ∉ os.opened) (call : Int → Call) (reply : Reply)
    (hcall : ∀ rc, (call rc).subject = some fd) : Acts os (os'.check call reply).os := by
  refine h.check call reply fun rc fd' hfd' heq => ?_
  rw [hcall, Option.some.injEq] at heq
  exact hfresh (heq ▸ hfd')

theorem close (h : Acts os os') (hfresh : fd ∉ os.opened) (reply : Reply) :
    Acts os (os'.close fd reply).os := by
  have hcheck := h.checkFd hfresh (.close fd (decide (fd ∈ os'.opened))) reply fun _ => rfl
  refine ⟨?_, fun fd' hfd' => ?_⟩
  · rw [Os.opened_close]
    exact Finset.subset_erase.mpr ⟨h.opened, hfresh⟩
  · refine (h.spares fd' hfd').trans (.single (Os.log_close os' fd reply) ?_)
    rintro ⟨⟩
    exact hfresh hfd'

end Acts

section Inet

variable {plat : Platform} {os : Os} {res : Resolver} {servername : Bytes} {port : UInt16}
  {baseSocktype : Nat} {nonblocking : Bool} {r : InetReplies} {ec : ErrorCode}
  {c : Ret (Int × Bytes)}

theorem acts_inetResult {addrs : AddrList} {s : AddressState addrs} (hs : Acts os s.os)
    (hfresh : 0 ≤ s.fd → s.fd ∉ os.opened) (close : Reply) : Acts os (inetResult s close).os := by
  rcases Int.lt_or_le s.fd 0 with hneg | hfd
  · rwa [inetResult_of_neg close hneg]
  · cases hec : s.ec.isSet with
    | false => rwa [inetResult_of_clear close hfd hec]
    | true =>
      rw [inetResult_of_isSet close hfd hec]
      exact hs.close (hfresh hfd) close

theorem acts_socket {addrs : AddrList} {s : AddressState addrs} (hs : Acts os s.os)
    (p : addrs.Ptr) (reply : FdReply) :
    Acts os (s.os.newFd (AddressLoop.socketCall addrs p) reply).os :=
  hs.newFd _ reply fun _ => rfl

theorem openInetSocket_acts
    (hc : openInetSocket plat os res servername port baseSocktype nonblocking r ec = some c) :
    Acts os c.os := by
  have hfresh := openInetSocket_fresh hc
  cases openInetSocket_exit hc with
  | unresolved _ => exact .start os
  | first addrs a rest _ _ =>
    refine acts_inetResult ?_ (by simpa using hfresh) r.close
    exact acts_socket (s := .start addrs ec os) (.start os) addrs.first (.ok a)
  | single addrs e rest _ _ _ =>
    refine acts_inetResult ?_ (by simpa using hfresh) r.close
    exact acts_socket (s := .start addrs .clear os) (.start os) addrs.first (.error e)
  | retried addrs e rest rest' t _ _ hlen hrun =>
    refine acts_inetResult ?_ (by simpa using hfresh) r.close
    refine AddressLoop.run_rule (fun s => Acts os s.os) (fun s => Acts os s.os) ?_ ?_ ?_ ?_ hrun
    · intro s p e hs _
      exact acts_socket hs p (.error e)
    · intro s p a hs _
      exact acts_socket hs p (.ok a)
    · intro s hs _
      exact hs
    · exact acts_socket (s := .start addrs .clear os) (.start os) addrs.first (.error e)

end Inet

section Callers

variable {plat : Platform} {os : Os} {c : Ret (Int × Bytes)}

theorem Tcp.connectTo_acts (h : Acts os c.os) (hfresh : 0 ≤ c.value.1 → c.value.1 ∉ os.opened)
    (r : Tcp.OpenReplies) : Acts os (Tcp.connectTo plat c r).os := by
  simp only [Tcp.connectTo]
  split
  · next hfd =>
    have hconnect := h.checkFd (hfresh hfd) (.connect c.value.1 c.value.2) r.connect fun _ => rfl
    split
    · exact hconnect.close (hfresh hfd) r.close
    · exact hconnect
  · exact h

theorem Tcp.listenAt_acts (h : Acts os c.os) (hfresh : 0 ≤ c.value.1 → c.value.1 ∉ os.opened)
    (n : Int) (r : Tcp.ServerReplies) : Acts os (Tcp.listenAt plat c n r).os := by
  simp only [Tcp.listenAt]
  split
  · next hfd =>
    have hset := h.checkFd (hfresh hfd) (.setReuseAddr c.value.1) r.setsockopt fun _ => rfl
    have hbind := hset.checkFd (hfresh hfd) (.bind c.value.1 c.value.2) r.bind fun _ => rfl
    have hlisten := hbind.checkFd (hfresh hfd) (.listen c.value.1 n) r.listen fun _ => rfl
    split
    · split
      · split
        · exact hlisten.close (hfresh hfd) r.close
        · exact hlisten
      · split
        · exact hbind.close (hfresh hfd) r.close
        · exact hbind
    · exact hset
  · exact h

theorem Udp.bindTo_acts (h : Acts os c.os) (hfresh : 0 ≤ c.value.1 → c.value.1 ∉ os.opened)
    (r : Tcp.ServerReplies) : Acts os (Udp.bindTo plat c r).os := by
  simp only [Udp.bindTo]
  split
  · next hfd =>
    have hset := h.checkFd (hfresh hfd) (.setReuseAddr c.value.1) r.setsockopt fun _ => rfl
    have hbind := hset.checkFd (hfresh hfd) (.bind c.value.1 c.value.2) r.bind fun _ => rfl
    split
    · split
      · exact hbind.close (hfresh hfd) r.close
      · exact hbind
    · exact hset
  · exact h

theorem Local.cleanUp_acts {os' : Os} {fd : Int} (h : Acts os os') (hfresh : fd ∉ os.opened)
    (ec : ErrorCode) (close : Reply) : Acts os (Local.cleanUp fd ec os' close).os := by
  unfold Local.cleanUp
  split
  · exact h.close hfresh close
  · exact h

theorem Local.open_acts (plat : Platform) (os : Os) (name : Bytes) (nonblocking : Bool)
    (r : Local.OpenReplies) (ec : ErrorCode) :
    Acts os (Local.open_ plat os name nonblocking r ec).os := by
  have hsocket := (Acts.start os).newFd (Local.socketCall nonblocking) r.socket fun _ => rfl
  by_cases hfit : Local.Fits name
  · cases hreply : r.socket with
    | error e =>
      rw [Local.open_of_socket_error plat os nonblocking ec hfit hreply]
      rwa [hreply] at hsocket
    | ok a =>
      rw [hreply] at hsocket
      have hconnect := hsocket.checkFd (a.fresh _)
        (.connect (a.pick os.opened) (Local.sockaddrUn name)) r.connect fun _ => rfl
      cases hreply' : r.connect with
      | error e =>
        rw [Local.open_of_connect_error plat os nonblocking ec hfit hreply hreply']
        rwa [hreply'] at hconnect
      | ok u =>
        rw [Local.open_of_connected plat os nonblocking ec hfit hreply hreply']
        rw [hreply'] at hconnect
        exact Local.cleanUp_acts hconnect (a.fresh _) ec r.close
  · rw [Local.open_of_long plat os nonblocking ec hfit]
    exact .start os

theorem Local.openServer_acts (plat : Platform) (os : Os) (name : Bytes) (nonblocking : Bool)
    (n : Int) (r : Local.ServerReplies) (ec : ErrorCode) :
    Acts os (Local.openServer plat os name nonblocking n r ec).os := by
  have hsocket := (Acts.start os).newFd (Local.socketCall nonblocking) r.socket fun _ => rfl
  by_cases hfit : Local.Fits name
  · cases hreply : r.socket with
    | error e =>
      rw [Local.openServer_of_socket_error plat os nonblocking n ec hfit hreply]
      rwa [hreply] at hsocket
    | ok a =>
      rw [Local.openServer_of_socket plat os nonblocking n ec hfit hreply]
      rw [hreply] at hsocket
      refine Local.cleanUp_acts ?_ (a.fresh _) _ r.close
      have hunlink := hsocket.check (.unlink (cStr (Local.sunPath name))) r.unlink
        fun _ _ _ => nofun
      have hbind := hunlink.checkFd (a.fresh _)
        (.bind (a.pick os.opened) (Local.sockaddrUn name)) r.bind fun _ => rfl
      unfold Local.serverOs
      simp only
      split
      · exact hbind.checkFd (a.fresh _) _ _ fun _ => rfl
      · exact hbind
  · rw [Local.openServer_of_long plat os nonblocking n ec hfit]
    exact .start os

end Callers

namespace FactoryCall

variable {plat : Platform} {os : Os} {ec : ErrorCode} {call : FactoryCall} {c : Ret Obj}

/-- No factory makes calls about descriptors that were open before. -/
theorem attempt_acts (hc : call.attempt plat os ec = some c) : Acts os c.os := by
  cases call with
  | makeFile path oflags perms reply =>
    obtain rfl := Option.some.inj hc
    simp only [os_open]
    exact (Acts.start os).newFd _ reply fun _ => rfl
  | makeLocalSocket name nonblocking r =>
    obtain rfl := Option.some.inj hc
    exact Local.open_acts plat os name nonblocking r ec
  | makeTcpSocket res servername port nonblocking inet r =>
    rw [attempt_makeTcpSocket] at hc
    obtain ⟨d, hd, rfl⟩ := Option.map_eq_some_iff.mp hc
    exact Tcp.connectTo_acts (openInetSocket_acts hd) (openInetSocket_fresh hd) r
  | makeUdpSocket res servername port nonblocking inet =>
    rw [attempt_makeUdpSocket] at hc
    obtain ⟨d, hd, rfl⟩ := Option.map_eq_some_iff.mp hc
    exact openInetSocket_acts hd
  | makeLocalServer name nonblocking n r =>
    obtain rfl := Option.some.inj hc
    exact Local.openServer_acts plat os name nonblocking n r ec
  | makeTcpServer res servername port nonblocking n inet r =>
    rw [attempt_makeTcpServer] at hc
    obtain ⟨d, hd, rfl⟩ := Option.map_eq_some_iff.mp hc
    exact Tcp.listenAt_acts (openInetSocket_acts hd) (openInetSocket_fresh hd) n r
  | makeUdpServer res servername port nonblocking inet r =>
    rw [attempt_makeUdpServer] at hc
    obtain ⟨d, hd, rfl⟩ := Option.map_eq_some_iff.mp hc
    exact Udp.bindTo_acts (openInetSocket_acts hd) (openInetSocket_fresh hd) r
  | acceptLocal server reply | acceptTcp server reply =>
    obtain rfl := Option.some.inj hc
    exact (Acts.start os).newFd _ reply fun _ => rfl

/-- The class of the object that a call makes. -/
def kind : FactoryCall → Kind
  | makeFile _ _ _ _ => .file
  | makeLocalSocket _ _ _ => .localSocket
  | makeTcpSocket _ _ _ _ _ _ => .tcpSocket
  | makeUdpSocket _ _ _ _ _ => .udpSocket
  | makeLocalServer _ _ _ _ => .localServer
  | makeTcpServer _ _ _ _ _ _ _ => .tcpServer
  | makeUdpServer _ _ _ _ _ _ => .udpServer
  | acceptLocal _ _ => .localPeer
  | acceptTcp _ _ => .tcpPeer

theorem attempt_kind (hc : call.attempt plat os ec = some c) : c.value.kind = call.kind := by
  cases call with
  | makeFile | makeLocalSocket | makeLocalServer | acceptLocal | acceptTcp =>
    obtain rfl := Option.some.inj hc
    rfl
  | makeTcpSocket | makeUdpSocket | makeTcpServer | makeUdpServer =>
    obtain ⟨d, -, rfl⟩ := Option.map_eq_some_iff.mp hc
    rfl

end FactoryCall

namespace Program

open World

variable {plat : Platform} {w w' w'' : World} {p : Place} {r : CloseReplies}

/-- An object of a class of the given base holds the descriptor. -/
def Holds (w : World) (kind : Kind) (fd : Int) : Prop :=
  ∃ p o, w.objs p = some o ∧ 0 ≤ fd ∧ o.h.fd = fd ∧ o.kind.base = kind

theorem held_iff_holds {fd : Int} : w.ledger.Held fd ↔ ∃ kind, Holds w kind fd := by
  simp only [Ledger.Held, ledger, heldBy_eq_some, Holds]
  constructor
  · rintro ⟨p, o, ho, hfd, heq⟩
    exact ⟨o.kind.base, p, o, ho, hfd, heq, rfl⟩
  · rintro ⟨kind, p, o, ho, hfd, heq, -⟩
    exact ⟨p, o, ho, hfd, heq⟩

theorem Holds.held {kind : Kind} {fd : Int} (h : Holds w kind fd) : w.ledger.Held fd :=
  held_iff_holds.mpr ⟨kind, h⟩

/-- What is still held was held before, by an object of the same base, and was spared. -/
structure Retains (w w' : World) : Prop where
  sound : w'.ledger.Sound
  holds : ∀ kind fd, Holds w' kind fd → Holds w kind fd
  spares : ∀ fd, w'.ledger.Held fd → Spares w.os w'.os fd

theorem Retains.held (h : Retains w w') {fd : Int} (hfd : w'.ledger.Held fd) :
    w.ledger.Held fd := by
  obtain ⟨kind, hkind⟩ := held_iff_holds.mp hfd
  exact (h.holds kind fd hkind).held

theorem Retains.refl (hs : w.ledger.Sound) : Retains w w :=
  ⟨hs, fun _ _ h => h, fun fd _ => .refl w.os fd⟩

theorem Retains.trans (h : Retains w w') (h' : Retains w' w'') : Retains w w'' :=
  ⟨h'.sound, fun kind fd hfd => h.holds kind fd (h'.holds kind fd hfd),
    fun fd hfd => (h.spares fd (h'.held hfd)).trans (h'.spares fd hfd)⟩

/-- An object takes the place of one of the same base that holds the same, or of none if it holds
nothing. -/
theorem holds_put {o : Option Obj} (ho : ∀ a, o = some a → 0 ≤ a.h.fd →
    ∃ b, w.objs p = some b ∧ b.h = a.h ∧ b.kind.base = a.kind.base) {kind : Kind} {fd : Int}
    (h : Holds (w.put p o) kind fd) : Holds w kind fd := by
  obtain ⟨q, a, ha, hfd, heq, hkind⟩ := h
  simp only [put, Function.update_apply] at ha
  split at ha
  · obtain ⟨b, hb, hhandle, hbase⟩ := ho a ha (heq ▸ hfd)
    exact ⟨p, b, hb, hfd, by rw [hhandle, heq], hbase.trans hkind⟩
  · exact ⟨q, a, ha, hfd, heq, hkind⟩

theorem holds_put_closed {o : Option Obj} (ho : heldBy o = none) {kind : Kind} {fd : Int}
    (h : Holds (w.put p o) kind fd) : Holds w kind fd := by
  refine holds_put (fun a ha hfd => ?_) h
  rw [ha, heldBy_of_nonneg hfd] at ho
  cases ho

theorem holds_swap {q : Place} (h : w.swap p q = some w') {kind : Kind} {fd : Int}
    (hfd : Holds w' kind fd) : Holds w kind fd := by
  obtain ⟨a, b, ha, hb, hbase, rfl⟩ := swap_eq_some h
  obtain ⟨x, o, ho, hnonneg, heq, hkind⟩ := hfd
  simp only [put, Function.update_apply] at ho
  split at ho
  · obtain rfl := Option.some.inj ho
    refine ⟨p, a, ha, hnonneg, ?_, ?_⟩
    · rw [← heq]
      simp only [Obj.swap]
      split <;> rfl
    · rw [hbase, ← hkind]
      simp only [Obj.swap]
      split <;> rfl
  · split at ho
    · obtain rfl := Option.some.inj ho
      refine ⟨q, b, hb, hnonneg, ?_, ?_⟩
      · rw [← heq]
        simp only [Obj.swap]
        split <;> rfl
      · rw [← hbase, ← hkind]
        simp only [Obj.swap]
        split <;> rfl
    · exact ⟨x, o, ho, hnonneg, heq, hkind⟩

/-- A close function makes calls about the descriptor that it closes. -/
theorem spares_closeOf (kind : Kind) (plat : Platform) {h : DeviceHandle} (os : Os)
    (r : CloseReplies) {fd : Int} (hne : h.fd ≠ fd) :
    Spares os (Obj.closeOf kind plat h os r).os fd := by
  have hclose : ∀ os', Spares os' (os'.close h.fd r.close).os fd := fun os' =>
    .single (Os.log_close os' h.fd r.close) (by simpa [Call.subject] using hne)
  have hfile : Spares os (File.close plat h os r).os fd := by
    simp only [File.close]
    split
    · have hfsync : Spares os (os.check (.fsync h.fd) r.fsync).os fd :=
        .single (Os.log_check os _ r.fsync) (by simpa [Call.subject] using hne)
      exact hfsync.trans (hclose _)
    · exact .refl os fd
  have hsocket : ∀ force, Spares os (Socket.close plat h force os r).os fd := by
    intro force
    simp only [Socket.close]
    split
    · cases force with
      | false => exact hclose os
      | true =>
        have hshutdown : Spares os (os.check (.shutdown h.fd) r.shutdown).os fd :=
          .single (Os.log_check os _ r.shutdown) (by simpa [Call.subject] using hne)
        exact hshutdown.trans (hclose _)
    · exact .refl os fd
  cases kind with
  | file => exact hfile
  | localServer | tcpServer => exact hsocket false
  | _ => exact hsocket true

theorem retains_close (hs : w.ledger.Sound) (h : w.close plat p r = some w') : Retains w w' := by
  refine ⟨(refines_close h).steps.sound hs, ?_, fun fd hfd => ?_⟩
  · intro kind fd hfd
    obtain ⟨o, ho, rfl⟩ := close_eq_some h
    refine holds_put_closed (p := p) ?_ hfd
    exact heldBy_of_closed (Obj.closeOf_closes o.kind plat o.h w.os r).handle
  · obtain ⟨hheld, hgone⟩ := ((discards_close hs h).held fd).mp hfd
    obtain ⟨o, ho, rfl⟩ := close_eq_some h
    refine spares_closeOf o.kind plat w.os r ?_
    rintro rfl
    obtain ⟨q, hq⟩ := hheld
    obtain ⟨-, -, hfd, -⟩ := heldBy_eq_some.mp hq
    exact hgone (by rw [ho, heldBy_of_nonneg hfd])

/-- The pieces of members make no descriptor. -/
theorem retains_piece {kinds : Kind → Prop} (hnone : ∀ kind, ¬ kinds kind) (hs : w.ledger.Sound)
    (h : Piece plat kinds w w') : Retains w w' := by
  have hsound := (piece_refines h).steps.sound hs
  cases h with
  | default p kind hp =>
    exact ⟨hsound, fun _ _ => holds_put_closed (heldBy_of_closed rfl), fun _ _ => .of_log rfl⟩
  | construct p kind a addr hp hkind => exact absurd hkind (hnone kind)
  | swap p q h =>
    refine ⟨hsound, fun _ _ => holds_swap h, fun _ _ => .of_log ?_⟩
    obtain ⟨a, b, -, -, -, rfl⟩ := swap_eq_some h
    rfl
  | close p r h => exact retains_close hs h
  | remove p o ho hclosed =>
    exact ⟨hsound, fun _ _ => holds_put_closed rfl, fun _ _ => .of_log rfl⟩
  | exchange p q =>
    refine ⟨hsound, ?_, fun _ _ => .of_log rfl⟩
    rintro kind fd ⟨x, o, ho, h⟩
    exact ⟨Equiv.swap p q x, o, ho, h⟩
  | setDevice d alive | foreignOpen a | foreignClose fd hfd =>
    exact ⟨hsound, fun _ _ h => h, fun _ _ => .of_log rfl⟩

theorem retains_pieces {kinds : Kind → Prop} (hnone : ∀ kind, ¬ kinds kind) (hs : w.ledger.Sound)
    (h : Pieces plat kinds w w') : Retains w w' := by
  induction h with
  | refl => exact .refl hs
  | tail _ hpiece ih => exact ih.trans (retains_piece hnone ih.sound hpiece)

theorem retains_member (hk : Kept w) {a : World.Action} (hmember : isMember a = true)
    (h : World.step plat w a = some w') : Retains w w' := by
  refine retains_pieces (fun kind => ?_) hk.sound (step_made hk.temp h).pieces
  cases a with
  | construct | deviceNew => cases hmember
  | _ => exact not_false

/-- The call of a step, if it makes an object, and the variable for it. -/
def callOf (w : World) : Action → Option (Nat × FactoryCall)
  | .member _ => none
  | .make v call _ => some (v, call)
  | .makeOrThrow v call => some (v, call)
  | .accept v q reply _ =>
    (w.objs q).bind fun server => (acceptCall server reply).map fun call => (v, call)

/-- What a call leaves in the objects: what was there and was spared, and what it has made without
an error from the state `os` on. -/
structure Brings (plat : Platform) (w w' : World) (p : Place) (call : FactoryCall) : Prop where
  holds : ∀ kind fd, Holds w' kind fd → Holds w kind fd ∨
    heldBy (w'.objs p) = some fd ∧ kind = call.kind.base
  spares : ∀ fd, w.ledger.Held fd → Spares w.os w'.os fd
  fresh : ∀ fd, heldBy (w'.objs p) = some fd → fd ∉ w.os.opened ∧
    ∃ ec c, call.attempt plat w.os ec = some c ∧ c.ec.isSet = false ∧ c.value.h.fd = fd ∧
      c.os = w'.os

theorem opened_of_held (hs : w.ledger.Sound) {fd : Int} (h : w.ledger.Held fd) :
    fd ∈ w.os.opened := by
  obtain ⟨p, hp⟩ := h
  simpa [ledger] using hs.alive p fd hp

theorem objs_store (w : World) (p : Place) (c : Ret Device) :
    (w.store p c).objs = Function.update w.objs p c.value := by
  cases p <;> rfl

/-- What is stored is what the call has returned, unless its code is set. -/
theorem brings_store (hk : Kept w) {call : FactoryCall} {ec : ErrorCode}
    {c : Ret Obj} (hc : call.attempt plat w.os ec = some c) {device : Device}
    (hdevice : device = some c.value ∧ c.ec.isSet = false ∨ heldBy device = none)
    (code : ErrorCode) : Brings plat w (w.store p ⟨device, code, c.os⟩) p call := by
  have hobjs : (w.store p ⟨device, code, c.os⟩).objs p = device := by
    rw [objs_store, Function.update_self]
  refine ⟨?_, ?_, ?_⟩
  · rintro kind fd ⟨q, o, ho, hfd, heq, hkind⟩
    rw [hobjs]
    rw [objs_store, Function.update_apply] at ho
    split at ho
    · rcases hdevice with ⟨rfl, -⟩ | hnone
      · obtain rfl := Option.some.inj ho
        rw [← hkind, FactoryCall.attempt_kind hc]
        exact .inr ⟨heq ▸ heldBy_of_nonneg (heq ▸ hfd), rfl⟩
      · obtain rfl : device = some o := ho
        rw [heldBy_of_nonneg (heq ▸ hfd)] at hnone
        cases hnone
    · exact .inl ⟨q, o, ho, hfd, heq, hkind⟩
  · intro fd hfd
    rw [os_store]
    exact (FactoryCall.attempt_acts hc).spares fd (opened_of_held hk.sound hfd)
  · intro fd hfd
    rw [hobjs] at hfd
    rw [os_store]
    rcases hdevice with ⟨rfl, hclear⟩ | hnone
    · obtain ⟨o, heq, -, rfl⟩ := heldBy_eq_some.mp hfd
      obtain rfl := Option.some.inj heq
      refine ⟨?_, ec, c, hc, hclear, rfl, rfl⟩
      cases FactoryCall.attempt_balance hc with
      | made _ _ _ hfresh _ => exact hfresh
      | refused _ hset _ => simp [hset] at hclear
      | stranded _ _ hset _ _ _ => simp [hset] at hclear
    · simp [hnone] at hfd

theorem brings_make (hk : Kept w) {v : Nat} {call : FactoryCall} {ec : ErrorCode}
    (h : make plat w v call ec = some w') : Brings plat w w' (placeOf v call) call := by
  obtain ⟨c, hc, -, rfl⟩ := make_eq_some h
  refine brings_store hk hc ?_ c.ec
  cases hset : c.ec.isSet with
  | false => exact .inl ⟨rfl, rfl⟩
  | true => exact .inr (heldBy_refused call)

theorem brings_makeOrThrow (hk : Kept w) {v : Nat} {call : FactoryCall}
    (h : makeOrThrow plat w v call = some w') : Brings plat w w' (placeOf v call) call := by
  obtain ⟨hfree, h⟩ := Option.ite_none_right_eq_some.mp h
  obtain ⟨⟨result, os'⟩, hr, rfl⟩ := Option.map_eq_some_iff.mp h
  obtain ⟨c, hc, rfl, rfl⟩ := FactoryCall.orThrow_eq_some hr
  cases hset : c.ec.isSet with
  | false => exact brings_store hk hc (.inl ⟨rfl, hset⟩) .clear
  | true =>
    refine ⟨fun _ _ hfd => .inl hfd, fun fd hfd => ?_, fun fd hfd => ?_⟩
    · exact (FactoryCall.attempt_acts hc).spares fd (opened_of_held hk.sound hfd)
    · simp [objs_of_isFree hfree, heldBy] at hfd

/-- A step retains what is held, or brings what its call has made. -/
theorem step_brings (hk : Kept w) {a : Action} (h : step plat w a = some w') :
    (callOf w a = none ∧ Retains w w') ∨
      ∃ v call, callOf w a = some (v, call) ∧ Brings plat w w' (placeOf v call) call := by
  cases a with
  | member a =>
    obtain ⟨hmember, h⟩ := Option.ite_none_right_eq_some.mp h
    exact .inl ⟨rfl, retains_member hk hmember h⟩
  | make v call ec =>
    obtain ⟨-, h⟩ := Option.ite_none_right_eq_some.mp h
    exact .inr ⟨v, call, rfl, brings_make hk h⟩
  | makeOrThrow v call =>
    obtain ⟨-, h⟩ := Option.ite_none_right_eq_some.mp h
    exact .inr ⟨v, call, rfl, brings_makeOrThrow hk h⟩
  | accept v q reply ec =>
    obtain ⟨server, hserver, h⟩ := Option.bind_eq_some_iff.mp h
    obtain ⟨call, hcall, h⟩ := Option.bind_eq_some_iff.mp h
    exact .inr ⟨v, call, by simp [callOf, hserver, hcall], brings_make hk h⟩

section Labels

variable {α : Type*} {new : FactoryCall → α} {label : Int → α} {v : Nat} {call : FactoryCall}
  {fd : Int}

/-- Labels of descriptors after a step: the one that its call has brought gets a new one. -/
def relabel (new : FactoryCall → α) (label : Int → α) (w : World) :
    Option (Nat × FactoryCall) → Int → α
  | none => label
  | some (v, call) =>
    match heldBy (w.objs (placeOf v call)) with
    | none => label
    | some fd => Function.update label fd (new call)

theorem relabel_of_ne (h : heldBy (w.objs (placeOf v call)) ≠ some fd) :
    relabel new label w (some (v, call)) fd = label fd := by
  cases hg : heldBy (w.objs (placeOf v call)) with
  | none => simp only [relabel, hg]
  | some g =>
    have hne : fd ≠ g := by
      rintro rfl
      exact h hg
    simp only [relabel, hg, Function.update_of_ne hne]

theorem relabel_of_eq (h : heldBy (w.objs (placeOf v call)) = some fd) :
    relabel new label w (some (v, call)) fd = new call := by
  simp only [relabel, h, Function.update_self]

/-- What becomes of the descriptors that are held after a step: each was held before, was spared
and keeps its label, or it was returned without an error by the call of the step. -/
theorem step_cases (hk : Kept w) {a : Action} (h : step plat w a = some w')
    (new : FactoryCall → α) (label : Int → α) {kind : Kind} (hfd : Holds w' kind fd) :
    (Holds w kind fd ∧ Spares w.os w'.os fd ∧ relabel new label w' (callOf w a) fd = label fd) ∨
    fd ∉ w.os.opened ∧ ∃ v call ec c, callOf w a = some (v, call) ∧ kind = call.kind.base ∧
      call.attempt plat w.os ec = some c ∧ c.ec.isSet = false ∧ c.value.h.fd = fd ∧
      c.os = w'.os ∧ relabel new label w' (callOf w a) fd = new call := by
  rcases step_brings hk h with ⟨hcall, hretains⟩ | ⟨v, call, hcall, hbrings⟩
  · exact .inl ⟨hretains.holds kind fd hfd, hretains.spares fd hfd.held, by rw [hcall]; rfl⟩
  · by_cases hnew : heldBy (w'.objs (placeOf v call)) = some fd
    · obtain ⟨hfresh, ec, c, hc, hec, hvalue, hos⟩ := hbrings.fresh fd hnew
      refine .inr ⟨hfresh, v, call, ec, c, hcall, ?_, hc, hec, hvalue, hos, ?_⟩
      · rcases hbrings.holds kind fd hfd with hold | ⟨-, hkind⟩
        · exact absurd (opened_of_held hk.sound hold.held) hfresh
        · exact hkind
      · rw [hcall, relabel_of_eq hnew]
    · have hold := (hbrings.holds kind fd hfd).resolve_right fun hr => hnew hr.1
      exact .inl ⟨hold, hbrings.spares fd hold.held, by rw [hcall, relabel_of_ne hnew]⟩

end Labels

end Program

end PfsIo
