import Mathlib.Data.List.TakeWhile
import PfsIo.Model.UnixSocket

/-!
# Draining a UDP socket

The loop `while (s.has_pending_data()) s.read(buf, n, ec)` on a queue of datagrams. The
peek counts bytes: an empty datagram looks like an empty queue and stops the loop. On
platforms with two codes for would-block, a stale `errno` makes each read return zero.

## Main results

* `Udp.drain_spec` — what the loop reads and what it leaves in the queue.
* `Udp.drains_iff` — when that is the whole queue.
-/

namespace PfsIo.Udp

open Library

/-- A datagram in the queue of a socket. -/
structure Queued where
  payload : Bytes
  source : Bytes
  deriving DecidableEq, Repr

/-- Not empty. -/
def Queued.visible (d : Queued) : Bool := !d.payload.isEmpty

/-- What `recvfrom` with `MSG_PEEK` answers for a queue; `blocked` is the platform's error
for an empty one. -/
def peekReply (blocked : ℕ+) : List Queued → RecvReply
  | [] => .error blocked
  | d :: _ => .ok d.payload

/-- What `recvfrom` answers for a queue, of which it removes the first datagram. -/
def recvReply (blocked : ℕ+) : List Queued → Except ℕ+ (Bytes × Bytes)
  | [] => .error blocked
  | d :: _ => .ok (d.payload, d.source)

structure DrainState where
  queue : List Queued
  paddr : HostAddress
  errno : Nat
  ec : ErrorCode
  /-- What each read has returned, with the bytes that it has stored. -/
  returned : List (Tally UInt8)
  deriving DecidableEq

/-- The variables before the loop. -/
def DrainState.start (queue : List Queued) (paddr : HostAddress) (errno : Nat)
    (ec : ErrorCode) : DrainState :=
  ⟨queue, paddr, errno, ec, []⟩

/-- `while (s.has_pending_data()) s.read(buf, n, ec)`. -/
def drainLoop (plat : Platform) (blocked : ℕ+) (n : Nat) :
    Loop DrainState (Except ℕ+ (Bytes × Bytes)) where
  guard s := Socket.hasPendingData (peekReply blocked s.queue)
  body s reply :=
    let r := read plat s.paddr n reply s.errno s.ec
    .next
      { queue := s.queue.tail
        paddr := r.2
        errno := r.1.errno
        ec := r.1.ec
        returned := s.returned ++ [r.1.tally] }

/-- The loop, for at most `fuel` reads, each answered from the queue. -/
def drain (plat : Platform) (blocked : ℕ+) (n fuel : Nat) (s : DrainState) :
    Option DrainState :=
  ((drainLoop plat blocked n).drive (fun s => recvReply blocked s.queue) fuel s).map Prod.snd

/-- The platform has a second code for would-block, and `errno` has been left at it. -/
def StaleErrno (plat : Platform) (errno : Nat) : Prop :=
  plat.eagain ≠ plat.ewouldblock ∧ errno = plat.ewouldblock

instance (plat : Platform) (errno : Nat) : Decidable (StaleErrno plat errno) :=
  inferInstanceAs (Decidable (_ ∧ _))

variable {plat : Platform} {blocked : ℕ+} {n : Nat} {s : DrainState}

theorem hasPendingData_iff (blocked : ℕ+) (queue : List Queued) :
    Socket.hasPendingData (peekReply blocked queue) = queue.head?.any Queued.visible := by
  cases queue with
  | nil => simp [peekReply, Socket.hasPendingData]
  | cons d queue =>
    obtain ⟨payload, source⟩ := d
    cases payload <;> simp [peekReply, Socket.hasPendingData, Queued.visible]

/-- A read that has received a datagram. -/
theorem read_received (paddr : HostAddress) (payload source : Bytes) (errno : Nat)
    (ec : ErrorCode) :
    (read plat paddr n (.ok (payload, source)) errno ec).1 =
      ⟨if StaleErrno plat errno then 0 else (payload.take n).length, ec, errno,
        payload.take n⟩ :=
  Socket.read_ok plat n errno ec payload

/-- What the loop makes of a datagram. -/
def returnedFor (plat : Platform) (n errno : Nat) (d : Queued) : Tally UInt8 :=
  ⟨if StaleErrno plat errno then 0 else (d.payload.take n).length, d.payload.take n⟩

theorem body_received (plat : Platform) (blocked : ℕ+) (n : Nat) {d : Queued} {queue : List Queued}
    (hs : s.queue = d :: queue) :
    ∃ u, (drainLoop plat blocked n).body s (recvReply blocked s.queue) = .next u ∧
      u.queue = queue ∧ u.errno = s.errno ∧
      u.returned = s.returned ++ [returnedFor plat n s.errno d] := by
  refine ⟨_, rfl, ?_, ?_, ?_⟩
  · simp [hs]
  · simp [hs, recvReply, read_received]
  · simp only [hs, recvReply, read_received, returnedFor, ReadResult.tally]

theorem drain_of_not_guard (h : (drainLoop plat blocked n).guard s = false) (fuel : Nat) :
    drain plat blocked n fuel s = some s := by
  simp [drain, Loop.drive_of_not_guard h]

theorem drain_of_next {u : DrainState} (h : (drainLoop plat blocked n).guard s = true)
    (hb : (drainLoop plat blocked n).body s (recvReply blocked s.queue) = .next u) (fuel : Nat) :
    drain plat blocked n (fuel + 1) s = drain plat blocked n fuel u := by
  have hdrive := Loop.drive_succ_next (f := fun s : DrainState => recvReply blocked s.queue) h hb
  simp only [drain, hdrive fuel, Option.map_map]
  rfl

/-- The loop reads up to the first empty datagram and leaves the rest in the queue. -/
theorem drain_spec (plat : Platform) (blocked : ℕ+) (n : Nat) (s : DrainState) :
    ∃ t, drain plat blocked n s.queue.length s = some t ∧
      t.queue = s.queue.dropWhile Queued.visible ∧
      t.returned =
        s.returned ++ (s.queue.takeWhile Queued.visible).map (returnedFor plat n s.errno) := by
  induction hq : s.queue generalizing s with
  | nil =>
    have hg : (drainLoop plat blocked n).guard s = false := by
      simp [drainLoop, hasPendingData_iff, hq]
    exact ⟨s, drain_of_not_guard hg 0, by simp [hq]⟩
  | cons d queue ih =>
    cases hd : d.visible with
    | false =>
      have hg : (drainLoop plat blocked n).guard s = false := by
        simp [drainLoop, hasPendingData_iff, hq, hd]
      exact ⟨s, drain_of_not_guard hg _, by simp [hq, hd]⟩
    | true =>
      have hg : (drainLoop plat blocked n).guard s = true := by
        simp [drainLoop, hasPendingData_iff, hq, hd]
      obtain ⟨u, hb, huqueue, hues, hureturned⟩ := body_received plat blocked n hq
      obtain ⟨t, ht, hqueue, hreturned⟩ := ih u huqueue
      refine ⟨t, ?_, ?_, ?_⟩
      · rw [List.length_cons, drain_of_next hg hb, ht]
      · simpa [hd] using hqueue
      · simpa [hd, hues, hureturned] using hreturned

theorem drain_unique {fuel fuel' : Nat} {t t' : DrainState}
    (h : drain plat blocked n fuel s = some t) (h' : drain plat blocked n fuel' s = some t') :
    t = t' := by
  obtain ⟨r, hr, rfl⟩ := Option.map_eq_some_iff.mp h
  obtain ⟨r', hr', rfl⟩ := Option.map_eq_some_iff.mp h'
  rw [Loop.drive_unique hr hr']

/-- A read that stores a whole datagram and returns its length. -/
def Queued.whole (d : Queued) : Tally UInt8 := ⟨d.payload.length, d.payload⟩

/-- There is pending data when the queue is not empty, and the loop ends when it has
returned the payload of every datagram, once and in order. -/
def Drains (plat : Platform) (blocked : ℕ+) (n : Nat) (queue : List Queued)
    (paddr : HostAddress) (errno : Nat) (ec : ErrorCode) : Prop :=
  (Socket.hasPendingData (peekReply blocked queue) = true ↔ queue ≠ []) ∧
    ∃ fuel t, drain plat blocked n fuel (.start queue paddr errno ec) = some t ∧
      t.queue = [] ∧ t.returned = queue.map Queued.whole

theorem visible_iff (d : Queued) : d.visible = true ↔ d.payload ≠ [] := by
  simp [Queued.visible]

/-- With a buffer for the longest datagram, the socket is drained exactly when no datagram
is empty, and `errno` has not been left at a second code for would-block. -/
theorem drains_iff (plat : Platform) (blocked : ℕ+) (n : Nat) (queue : List Queued)
    (paddr : HostAddress) (errno : Nat) (ec : ErrorCode)
    (hn : ∀ d ∈ queue, d.payload.length ≤ n) :
    Drains plat blocked n queue paddr errno ec ↔
      (∀ d ∈ queue, d.payload ≠ []) ∧ (queue = [] ∨ ¬ StaleErrno plat errno) := by
  obtain ⟨t, ht, hqueue, hreturned⟩ := drain_spec plat blocked n (.start queue paddr errno ec)
  simp only [DrainState.start, List.nil_append] at hqueue hreturned
  constructor
  · rintro ⟨-, fuel, u, hu, hempty, hall⟩
    obtain rfl := drain_unique ht hu
    have hvisible : ∀ d ∈ queue, d.visible = true := by
      rw [← List.dropWhile_eq_nil_iff, ← hqueue, hempty]
    refine ⟨fun d hd => (visible_iff d).mp (hvisible d hd), ?_⟩
    rw [List.takeWhile_eq_self_iff.mpr hvisible, hall] at hreturned
    cases queue with
    | nil => exact .inl rfl
    | cons d queue =>
      refine .inr fun hstale => ?_
      have hpayload : d.payload = [] := by
        have hrc := congrArg Tally.rc (List.cons.inj hreturned).1
        simpa [returnedFor, hstale, Queued.whole] using hrc
      exact (visible_iff d).mp (hvisible d List.mem_cons_self) hpayload
  · rintro ⟨hpayload, herrno⟩
    have hvisible : ∀ d ∈ queue, d.visible = true :=
      fun d hd => (visible_iff d).mpr (hpayload d hd)
    refine ⟨?_, _, t, ht, ?_, ?_⟩
    · rw [hasPendingData_iff]
      cases queue with
      | nil => simp
      | cons d queue => simp [hvisible d List.mem_cons_self]
    · rw [hqueue, List.dropWhile_eq_nil_iff]
      exact hvisible
    · rw [hreturned, List.takeWhile_eq_self_iff.mpr hvisible]
      apply List.map_congr_left
      intro d hd
      have hne : queue ≠ [] := List.ne_nil_of_mem hd
      simp [returnedFor, herrno.resolve_left hne, List.take_of_length_le (hn d hd), Queued.whole]

/-- Two datagrams from one sender. -/
theorem drains_two : Drains .linux 11 16 [⟨[7], []⟩, ⟨[8, 9], []⟩] .zero 0 .clear :=
  (drains_iff .linux 11 16 [⟨[7], []⟩, ⟨[8, 9], []⟩] .zero 0 .clear (by decide)).mpr (by decide)

/-- An empty datagram before another one: nothing is pending, and the loop ends at once with
both still in the queue. -/
theorem not_drains_empty :
    Socket.hasPendingData (peekReply 11 [⟨[], []⟩, ⟨[7], []⟩]) = false ∧
      ∃ t, drain .linux 11 16 2 (.start [⟨[], []⟩, ⟨[7], []⟩] .zero 0 .clear) = some t ∧
        t.returned = [] ∧ t.queue.length = 2 ∧
        ¬ Drains .linux 11 16 [⟨[], []⟩, ⟨[7], []⟩] .zero 0 .clear := by
  refine ⟨rfl, _, rfl, rfl, rfl, ?_⟩
  rintro ⟨hpending, -⟩
  exact absurd (hpending.mpr (by simp)) (by decide)

end PfsIo.Udp
