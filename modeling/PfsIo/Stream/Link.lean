import PfsIo.Library.Machine
import PfsIo.Stream.SendLoop

/-!
# One direction of a connected stream socket

A writer calls `socket::write` at one end and a reader calls `socket::read` at the other;
between them is a reliable FIFO. The sends of a running write, its return, and the reads
are steps of their own, so that a run is an interleaving of them with any answers of
the kernel.

## Main results

* `Link.run_ordered` — what the reads have reported is, in order, what the writes sent.
* `Link.run_calls` — each write that has returned is a run of `socket::write`.
-/

namespace PfsIo

open Library Library.Transfer Socket

/-- Both ends and the bytes in flight. `calls` are the writes that have returned, with
their return values; `current` is the one that is running. -/
structure Link where
  calls : List (Bytes × Int)
  current : Option (Bytes × WriteState)
  writerErrno : Nat
  writerEc : ErrorCode
  channel : Bytes
  /-- What each read has returned, with what `recv` has stored for it. -/
  reads : List (Tally UInt8)
  readerErrno : Nat
  readerEc : ErrorCode
  deriving DecidableEq

namespace Link

/-- A connection with nothing sent; `errno` and the error codes can have any value. -/
def start (writerErrno : Nat) (writerEc : ErrorCode) (readerErrno : Nat) (readerEc : ErrorCode) :
    Link :=
  ⟨[], none, writerErrno, writerEc, [], [], readerErrno, readerEc⟩

inductive Action where
  /-- The writer calls `socket::write`. -/
  | write (message : Bytes)
  /-- One iteration of its loop, with the answer to `send`. -/
  | send (reply : SendReply)
  /-- The loop has ended and the function returns. -/
  | return
  /-- The reader calls `socket::read` for `n` bytes; `recv` delivers so many at most. -/
  | read (n : Nat) (reply : Except ℕ+ Nat)

/-- The bytes that the return values of the reads have reported. -/
def reported (l : Link) : Bytes := reportedBy l.reads

/-- What a call of `send` appends to the channel: the first bytes of its range. -/
def taken (message : Bytes) (s : WriteState) (reply : SendReply) : Bytes :=
  match sendAnswer s.n reply with
  | .ok k => (message.drop s.totalWritten.toNat).take k
  | .error _ => []

/-- The running write returns from its final loop state. -/
def finish (plat : Platform) (l : Link) (message : Bytes) (s : WriteState) : Link :=
  let r := writeResult plat l.writerEc s
  { l with
    calls := l.calls ++ [(message, r.rc)]
    current := none
    writerErrno := r.errno
    writerEc := r.ec }

/-- The bytes that `recv` delivers from the head of the channel. -/
def delivered (l : Link) (n : Nat) (reply : Except ℕ+ Nat) : RecvReply :=
  reply.map fun k => l.channel.take (min k n)

/-- What is left in the channel after `recv`, whatever the function makes of its answer. -/
def remaining (l : Link) (n : Nat) : Except ℕ+ Nat → Bytes
  | .ok k => l.channel.drop (min k n)
  | .error _ => l.channel

def step (plat : Platform) : Machine Link Action
  | l, .write message =>
    if l.current.isNone ∧ message.length ≤ intMax then
      some { l with current := some (message, .start message.length l.writerErrno) }
    else none
  | l, .send reply =>
    match l.current with
    | none => none
    | some (message, s) =>
      if (writeLoop plat).guard s then
        match (writeLoop plat).body s reply with
        | .next t => some { l with
            current := some (message, t)
            channel := l.channel ++ taken message s reply }
        | .leave t => some (l.finish plat message t)
      else none
  | l, .return =>
    match l.current with
    | none => none
    | some (message, s) =>
      if (writeLoop plat).guard s then none else some (l.finish plat message s)
  | l, .read n reply =>
    let r := Socket.read plat n (l.delivered n reply) l.readerErrno l.readerEc
    some { l with
      channel := l.remaining n reply
      reads := l.reads ++ [r.tally]
      readerErrno := r.errno
      readerEc := r.ec }

/-- The part of its message that a finished write has put into the stream: all of it if
it returned the length, and some first part of it if it failed. -/
def Contributes (call : Bytes × Int) (sent : Bytes) : Prop :=
  (call.2 = call.1.length ∧ sent = call.1) ∨ (call.2 = -1 ∧ sent <+: call.1)

/-- The part of its message that the running write has put into the stream so far. -/
def Running (current : Option (Bytes × WriteState)) (sent : Bytes) : Prop :=
  match current with
  | none => sent = []
  | some (message, s) => message.length ≤ intMax ∧
      ∃ done, Sending message.length s done ∧ sent = message.take done

/-- What was reported and what is in flight are the contributions, in order, and the reads have
returned what they have stored. -/
structure Ordered (l : Link) : Prop where
  stream : ∃ parts last, List.Forall₂ Contributes l.calls parts ∧ Running l.current last ∧
    l.reported ++ l.channel = parts.flatten ++ last
  counted : ∀ r ∈ l.reads, r.Exact

variable {plat : Platform} {l m : Link} {message : Bytes} {s t : WriteState} {done : Nat}

theorem Ordered.start (writerErrno : Nat) (writerEc : ErrorCode) (readerErrno : Nat)
    (readerEc : ErrorCode) : Ordered (start writerErrno writerEc readerErrno readerEc) :=
  ⟨⟨[], [], .nil, rfl, rfl⟩, by rintro r ⟨⟩⟩

/-- A write that returns turns what it has sent into its contribution. -/
theorem Ordered.finish {parts : List Bytes} {last : Bytes}
    (hcalls : List.Forall₂ Contributes l.calls parts)
    (hlast : Contributes (message, t.totalWritten) last)
    (hbytes : l.reported ++ l.channel = parts.flatten ++ last)
    (hcounted : ∀ r ∈ l.reads, r.Exact) : Ordered (l.finish plat message t) := by
  refine ⟨⟨parts ++ [last], [], ?_, rfl, ?_⟩, hcounted⟩
  · exact List.rel_append hcalls (.cons hlast .nil)
  · simpa [Link.finish, reported] using hbytes

/-- With equal codes a read stores what `recv` delivers, and returns how much that is. -/
theorem read_tally (heq : plat.eagain = plat.ewouldblock) (n : Nat) (reply : Except ℕ+ Nat)
    (errno : Nat) (ec : ErrorCode) :
    let t := (Socket.read plat n (l.delivered n reply) errno ec).tally
    t.Exact ∧ t.items ++ l.remaining n reply = l.channel := by
  cases reply with
  | ok k =>
    have hstale : ¬ (plat.eagain ≠ plat.ewouldblock ∧ errno = plat.ewouldblock) :=
      fun h => h.1 heq
    have hmin : min n (min k n) = min k n := by omega
    simp only [delivered, Except.map, Socket.read_ok, if_neg hstale, ReadResult.tally, remaining,
      List.take_take, hmin]
    exact ⟨.ok _, List.take_append_drop _ _⟩
  | error e =>
    simp only [delivered, Except.map, Socket.read_error, remaining]
    split
    · exact ⟨.ok [], rfl⟩
    · exact ⟨.failed (Int.negSucc_lt_zero 0), rfl⟩

theorem Ordered.send (h : Ordered l) {reply : SendReply}
    (hstep : step plat l (.send reply) = some m) : Ordered m := by
  obtain ⟨⟨parts, last, hcalls, hlast, hbytes⟩, hcounted⟩ := h
  cases hc : l.current with
  | none => simp [step, hc] at hstep
  | some current =>
    obtain ⟨message, s⟩ := current
    rw [hc] at hlast
    obtain ⟨hlen, done, hs, rfl⟩ := hlast
    cases hg : (writeLoop plat).guard s with
    | false => simp [step, hc, hg] at hstep
    | true =>
      cases reply with
      | ok r =>
        obtain ⟨t, hb, ht⟩ := hs.accept plat hlen r
        simp only [step, hc, hg, if_true, hb, Option.some.injEq] at hstep
        subst hstep
        refine ⟨⟨parts, _, hcalls, ⟨hlen, _, ht, rfl⟩, ?_⟩, hcounted⟩
        have htaken : taken message s (.ok r) =
            (message.drop done).take (min (r : Nat) (message.length - done)) := by
          simp [taken, sendAnswer, Except.map, hs.total, hs.rest]
        have hkept : l.reported ++ (l.channel ++ taken message s (.ok r)) =
            parts.flatten ++ message.take (done + min (r : Nat) (message.length - done)) := by
          rw [← List.append_assoc, hbytes, htaken, List.append_assoc, ← List.take_add]
        exact hkept
      | error e =>
        have htaken : taken message s (.error e) = [] := rfl
        cases he : plat.wouldBlock e with
        | true =>
          obtain ⟨t, hb, ht⟩ := hs.wouldBlock he
          simp only [step, hc, hg, if_true, hb, Option.some.injEq] at hstep
          subst hstep
          rw [htaken, List.append_nil]
          exact ⟨⟨parts, _, hcalls, ⟨hlen, _, ht, rfl⟩, hbytes⟩, hcounted⟩
        | false =>
          obtain ⟨t, hb, hrc, -, -⟩ := hs.fatal he
          simp only [step, hc, hg, if_true, hb, Option.some.injEq] at hstep
          subst hstep
          exact Ordered.finish hcalls (.inr ⟨hrc, List.take_prefix _ _⟩) hbytes hcounted

theorem Ordered.step (heq : plat.eagain = plat.ewouldblock) (h : Ordered l) {a : Action}
    (hstep : step plat l a = some m) : Ordered m := by
  cases a with
  | write message =>
    obtain ⟨⟨parts, last, hcalls, hlast, hbytes⟩, hcounted⟩ := h
    simp only [Link.step, Option.ite_none_right_eq_some, Option.some.injEq] at hstep
    obtain ⟨⟨hnone, hlen⟩, rfl⟩ := hstep
    rw [Option.isNone_iff_eq_none.mp hnone] at hlast
    obtain rfl : last = [] := hlast
    exact ⟨⟨parts, [], hcalls, ⟨hlen, 0, .start _ _, by simp⟩, hbytes⟩, hcounted⟩
  | send reply => exact h.send hstep
  | «return» =>
    obtain ⟨⟨parts, last, hcalls, hlast, hbytes⟩, hcounted⟩ := h
    cases hc : l.current with
    | none => simp [Link.step, hc] at hstep
    | some current =>
      obtain ⟨message, s⟩ := current
      rw [hc] at hlast
      obtain ⟨hlen, done, hs, rfl⟩ := hlast
      simp only [Link.step, hc, Option.ite_none_left_eq_some, Option.some.injEq] at hstep
      obtain ⟨hg, rfl⟩ := hstep
      have hd : ¬ done < message.length := by simpa [hs.guard] using hg
      have hle := hs.le
      obtain rfl : done = message.length := by omega
      exact Ordered.finish hcalls (.inl ⟨hs.total, by simp⟩) hbytes hcounted
  | read n reply =>
    obtain ⟨⟨parts, last, hcalls, hlast, hbytes⟩, hcounted⟩ := h
    obtain rfl := Option.some.inj hstep
    obtain ⟨hexact, hrest⟩ := read_tally (l := l) heq n reply l.readerErrno l.readerEc
    refine ⟨⟨parts, last, hcalls, hlast, ?_⟩, Tally.exact_concat hcounted hexact⟩
    rw [← hbytes]
    simp only [reported, reportedBy_concat _ hexact, List.append_assoc]
    rw [hrest]

/-- The finished writes are runs of `socket::write`, and the running one has begun as one. -/
structure Faithful (plat : Platform) (l : Link) : Prop where
  calls : ∀ c ∈ l.calls, ∃ errno ec replies r,
    Socket.write plat c.1.length errno ec replies = some (r, []) ∧ r.rc = c.2
  current : ∀ c, l.current = some c → ∃ errno used, ∀ rest,
    (writeLoop plat).run (.start c.1.length errno) (used ++ rest) = (writeLoop plat).run c.2 rest

theorem Faithful.finish (h : Faithful plat l) {replies : List SendReply} {errno : Nat}
    (hrun : (writeLoop plat).run (.start message.length errno) replies = some (t, [])) :
    Faithful plat (l.finish plat message t) := by
  refine ⟨fun c hc => ?_, fun c hc => by simp [Link.finish] at hc⟩
  rcases List.mem_append.mp hc with hc | hc
  · exact h.calls c hc
  · obtain rfl := List.mem_singleton.mp hc
    exact ⟨errno, l.writerEc, replies, _, by simp [Socket.write, hrun], rfl⟩

theorem Faithful.step (h : Faithful plat l) {a : Action} (hstep : step plat l a = some m) :
    Faithful plat m := by
  cases a with
  | write message =>
    simp only [Link.step, Option.ite_none_right_eq_some, Option.some.injEq] at hstep
    obtain ⟨-, rfl⟩ := hstep
    refine ⟨h.calls, fun c hc => ?_⟩
    obtain rfl := Option.some.inj hc
    exact ⟨l.writerErrno, [], fun rest => rfl⟩
  | send reply =>
    cases hc : l.current with
    | none => simp [Link.step, hc] at hstep
    | some current =>
      obtain ⟨message, s⟩ := current
      obtain ⟨errno, used, hused⟩ := h.current _ hc
      cases hg : (writeLoop plat).guard s with
      | false => simp [Link.step, hc, hg] at hstep
      | true =>
        cases hb : (writeLoop plat).body s reply with
        | next t =>
          simp only [Link.step, hc, hg, if_true, hb, Option.some.injEq] at hstep
          subst hstep
          refine ⟨h.calls, fun c hc => ?_⟩
          obtain rfl := Option.some.inj hc
          refine ⟨errno, used ++ [reply], fun rest => ?_⟩
          rw [List.append_assoc, List.singleton_append, hused, Loop.run_cons_next hg hb]
        | leave t =>
          simp only [Link.step, hc, hg, if_true, hb, Option.some.injEq] at hstep
          subst hstep
          exact h.finish ((hused [reply]).trans (Loop.run_cons_leave hg hb))
  | «return» =>
    cases hc : l.current with
    | none => simp [Link.step, hc] at hstep
    | some current =>
      obtain ⟨message, s⟩ := current
      obtain ⟨errno, used, hused⟩ := h.current _ hc
      simp only [Link.step, hc, Option.ite_none_left_eq_some, Option.some.injEq] at hstep
      obtain ⟨hg, rfl⟩ := hstep
      have hg' : (writeLoop plat).guard s = false := by simpa using hg
      exact h.finish ((hused []).trans (Loop.run_of_not_guard hg'))
  | read n reply =>
    obtain rfl := Option.some.inj hstep
    exact ⟨h.calls, h.current⟩

/-- Each write that has returned in a run of the link is a run of `socket::write`. -/
theorem run_calls (plat : Platform) (writerErrno : Nat) (writerEc : ErrorCode)
    (readerErrno : Nat) (readerEc : ErrorCode) (actions : List Action) (l : Link)
    (hrun : Machine.run (step plat) (start writerErrno writerEc readerErrno readerEc) actions =
      some l) :
    ∀ c ∈ l.calls, ∃ errno ec replies r,
      Socket.write plat c.1.length errno ec replies = some (r, []) ∧ r.rc = c.2 := by
  have keeps : ∀ s a t, Faithful plat s → step plat s a = some t → Faithful plat t :=
    fun s a t hs hst => hs.step hst
  have hl : Faithful plat l :=
    Machine.run_keeps keeps ⟨by simp [start], by simp [start]⟩ hrun
  exact hl.calls

end Link

end PfsIo
