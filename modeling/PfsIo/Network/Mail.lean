import PfsIo.Datagram.Write
import PfsIo.Objects.Spared

/-!
# Datagrams on their way

What the kernel and the network keep of datagrams: the addresses that sockets are bound to, the
datagrams that fly, and those that wait at sockets. A network can deliver a datagram late, more than
once, or never.

## Main definitions

* `Mail.next` — the effect of a call.
* `Mail.post`, `Mail.arrive`, `Mail.drop`, `Mail.take` — what happens to datagrams.
* `Mail.count` — how many copies of a datagram there are.

## Main results

* `Mail.count_run` — no call makes a datagram, or makes one vanish.
* `Mail.bound_run` — calls about other sockets.
-/

namespace PfsIo

open Library Udp

structure Mail where
  bound : Int → Option Bytes
  flying : List Packet
  /-- The datagrams that wait, each with the socket that it waits at. -/
  queued : List (Int × Packet)
  /-- Lost on the way, or with the socket that they waited at. -/
  lost : List Packet

namespace Mail

def start : Mail := ⟨fun _ => none, [], [], []⟩

/-- The descriptor is no socket any more, or one that is new. -/
def reset (m : Mail) (fd : Int) : Mail where
  bound := Function.update m.bound fd none
  flying := m.flying
  queued := m.queued.filter fun q => q.1 ≠ fd
  lost := m.lost ++ (m.queued.filter fun q => q.1 = fd).map Prod.snd

/-- The effect of a call, if the kernel can give its answer: no socket is bound twice. -/
def next : Machine Mail Call
  | m, .bind fd addr rc =>
    if rc = 0 then
      if m.bound fd = none then some { m with bound := Function.update m.bound fd (some addr) }
      else none
    else some m
  | m, .socket _ _ _ rc => some (if 0 ≤ rc then m.reset rc else m)
  | m, .close fd _ _ => some (m.reset fd)
  | m, _ => some m

/-- Datagrams are sent; a socket that is not bound is bound to some address then. -/
def post (m : Mail) (fd : Int) (source : Bytes) (packets : List Packet) : Mail where
  bound :=
    if packets = [] ∨ (m.bound fd).isSome then m.bound
    else Function.update m.bound fd (some source)
  flying := m.flying ++ packets
  queued := m.queued
  lost := m.lost

/-- The datagram `i`, or a copy of it, reaches the socket. -/
def arrive (reaches : Bytes → Bytes → Bool) (m : Mail) (i : Nat) (fd : Int) (copy : Bool) :
    Option (Packet × Mail) :=
  match m.flying[i]?, m.bound fd with
  | some p, some addr =>
    if reaches p.addr addr then
      some (p, { m with
        flying := if copy then m.flying else m.flying.eraseIdx i
        queued := m.queued ++ [(fd, p)] })
    else none
  | _, _ => none

/-- The datagram `i` is lost. -/
def drop (m : Mail) (i : Nat) : Option Mail :=
  m.flying[i]?.map fun p => { m with flying := m.flying.eraseIdx i, lost := m.lost ++ [p] }

/-- The datagram that waits longest at a socket is taken from it. -/
def take (m : Mail) (fd : Int) : Option (Packet × Mail) :=
  (m.queued.find? fun q => q.1 = fd).map fun q =>
    (q.2, { m with queued := m.queued.eraseP fun q => q.1 = fd })

/-- The copies of a datagram that fly, wait or are lost. -/
def count (m : Mail) (p : Packet) : Nat :=
  m.flying.count p + (m.queued.map Prod.snd).count p + m.lost.count p

/-- What waits at a socket was sent to its address. -/
def Sorted (reaches : Bytes → Bytes → Bool) (m : Mail) : Prop :=
  ∀ q ∈ m.queued, ∃ addr, m.bound q.1 = some addr ∧ reaches q.2.addr addr = true

variable {reaches : Bytes → Bytes → Bool} {m m' : Mail} {fd : Int} {p : Packet} {call : Call}

theorem count_reset (m : Mail) (fd : Int) (p : Packet) : (m.reset fd).count p = m.count p := by
  have hsplit : (m.queued.map Prod.snd).count p =
      ((m.queued.filter fun q => q.1 = fd).map Prod.snd).count p +
        ((m.queued.filter fun q => q.1 ≠ fd).map Prod.snd).count p := by
    have hperm := (List.filter_append_perm (fun q : Int × Packet => q.1 = fd) m.queued).map Prod.snd
    rw [← hperm.count_eq p, List.map_append, List.count_append]
    simp
  simp only [count, reset, List.count_append, hsplit]
  omega

theorem Sorted.reset (h : m.Sorted reaches) (fd : Int) : (m.reset fd).Sorted reaches := by
  intro q hq
  obtain ⟨hq, hne⟩ := List.mem_filter.mp hq
  obtain ⟨addr, hbound, hreaches⟩ := h q hq
  have hne' : q.1 ≠ fd := by simpa using hne
  exact ⟨addr, (Function.update_of_ne hne' _ _).trans hbound, hreaches⟩

/-- A call leaves the mail as it is, binds a socket, or resets a descriptor. -/
theorem next_eq_some (h : next m call = some m') :
    m' = m ∨ (∃ fd addr, call = .bind fd addr 0 ∧ m.bound fd = none ∧
      m' = { m with bound := Function.update m.bound fd (some addr) }) ∨
    ∃ fd, call.subject = some fd ∧ m' = m.reset fd := by
  cases call with
  | bind fd addr rc =>
    simp only [next] at h
    split at h
    · next hrc =>
      obtain ⟨hbound, h⟩ := Option.ite_none_right_eq_some.mp h
      exact .inr (.inl ⟨fd, addr, by rw [hrc], hbound, (Option.some.inj h).symm⟩)
    · exact .inl (Option.some.inj h).symm
  | socket family socktype protocol rc =>
    obtain rfl := Option.some.inj h
    split
    · next hrc => exact .inr (.inr ⟨rc, if_pos hrc, rfl⟩)
    · exact .inl rfl
  | close fd wasOpen rc => exact .inr (.inr ⟨fd, rfl, (Option.some.inj h).symm⟩)
  | _ => exact .inl (Option.some.inj h).symm

theorem count_next (h : next m call = some m') (p : Packet) : m'.count p = m.count p := by
  rcases next_eq_some h with rfl | ⟨fd, addr, -, -, rfl⟩ | ⟨fd, -, rfl⟩
  · rfl
  · rfl
  · exact m.count_reset fd p

theorem Sorted.next (hm : m.Sorted reaches) (h : next m call = some m') : m'.Sorted reaches := by
  rcases next_eq_some h with rfl | ⟨fd, addr, -, hnone, rfl⟩ | ⟨fd, -, rfl⟩
  · exact hm
  · intro q hq
    obtain ⟨addr', hbound, hreaches⟩ := hm q hq
    have hne : q.1 ≠ fd := by
      rintro rfl
      simp [hnone] at hbound
    exact ⟨addr', (Function.update_of_ne hne _ _).trans hbound, hreaches⟩
  · exact hm.reset fd

theorem bound_next (hcall : call.subject ≠ some fd) (h : next m call = some m') :
    m'.bound fd = m.bound fd := by
  rcases next_eq_some h with rfl | ⟨fd', addr, rfl, -, rfl⟩ | ⟨fd', hsubject, rfl⟩
  · rfl
  · refine Function.update_of_ne ?_ _ _
    rintro rfl
    exact hcall rfl
  · refine Function.update_of_ne ?_ _ _
    rintro rfl
    exact hcall hsubject

section Runs

variable {os os' : Os} {calls : List Call}

/-- No call makes a datagram, or makes one vanish. -/
theorem count_run (h : Machine.run next m calls = some m') (p : Packet) :
    m'.count p = m.count p :=
  Machine.run_keeps (fun _ _ _ hs hst => (count_next hst p).trans hs) rfl h

theorem Sorted.run (hm : m.Sorted reaches) (h : Machine.run Mail.next m calls = some m') :
    m'.Sorted reaches :=
  Machine.run_keeps (fun _ _ _ hs hst => hs.next hst) hm h

theorem bound_run (hspares : Spares os os' fd)
    (h : Machine.run next m (callsSince os os') = some m') : m'.bound fd = m.bound fd :=
  hspares.run (fun m m' : Mail => m'.bound fd = m.bound fd) (fun _ => rfl)
    (fun _ _ _ hst htu => htu.trans hst) (fun _ _ _ => bound_next) h

/-- The socket of a successful call of `bind`. -/
theorem bound_run_bind {addr : Bytes}
    (h : Machine.run next m (calls ++ [.bind fd addr 0]) = some m') :
    m'.bound fd = some addr := by
  rw [Machine.run_append] at h
  obtain ⟨mid, -, hlast⟩ := Option.bind_eq_some_iff.mp h
  obtain ⟨m', hnext, heq⟩ := Machine.run_cons_eq_some.mp hlast
  obtain rfl := Option.some.inj heq
  obtain ⟨-, hnext⟩ := Option.ite_none_right_eq_some.mp hnext
  obtain rfl := Option.some.inj hnext
  exact Function.update_self _ _ _

end Runs

section Traffic

variable {source : Bytes} {packets : List Packet} {i : Nat} {copy : Bool}

theorem count_post (m : Mail) (fd : Int) (source : Bytes) (packets : List Packet) (p : Packet) :
    (m.post fd source packets).count p = m.count p + packets.count p := by
  simp only [count, post, List.count_append]
  omega

/-- A socket that is bound stays so. -/
theorem bound_post {addr : Bytes} (h : m.bound fd = some addr) (fd' : Int) :
    (m.post fd' source packets).bound fd = some addr := by
  simp only [post]
  split
  · exact h
  · next hcond =>
    have hne : fd ≠ fd' := by
      rintro rfl
      simp [h] at hcond
    rw [Function.update_of_ne hne, h]

theorem Sorted.post (hm : m.Sorted reaches) (fd : Int) (source : Bytes) (packets : List Packet) :
    (m.post fd source packets).Sorted reaches := by
  intro q hq
  obtain ⟨addr, hbound, hreaches⟩ := hm q hq
  exact ⟨addr, bound_post hbound fd, hreaches⟩

theorem arrive_eq_some (h : m.arrive reaches i fd copy = some (p, m')) :
    ∃ addr, m.flying[i]? = some p ∧ m.bound fd = some addr ∧ reaches p.addr addr = true ∧
      m' = { m with
        flying := if copy then m.flying else m.flying.eraseIdx i
        queued := m.queued ++ [(fd, p)] } := by
  unfold arrive at h
  split at h
  · next p' addr hp hbound =>
    obtain ⟨hreaches, h⟩ := Option.ite_none_right_eq_some.mp h
    obtain ⟨rfl, rfl⟩ := Prod.mk.inj (Option.some.inj h)
    exact ⟨addr, hp, hbound, hreaches, rfl⟩
  · cases h

theorem count_eraseIdx (hp : m.flying[i]? = some p) (q : Packet) :
    m.flying.count q = (m.flying.eraseIdx i).count q + [p].count q := by
  obtain ⟨hi, rfl⟩ := List.getElem?_eq_some_iff.mp hp
  rw [← (List.getElem_cons_eraseIdx_perm hi).count_eq q, ← List.singleton_append,
    List.count_append, Nat.add_comm]

/-- What arrives is one copy more, or flies no more. -/
theorem count_arrive (h : m.arrive reaches i fd copy = some (p, m')) (q : Packet) :
    m'.count q = m.count q + if copy then [p].count q else 0 := by
  obtain ⟨addr, hp, -, -, rfl⟩ := arrive_eq_some h
  have herase := count_eraseIdx hp q
  simp only [count, List.map_append, List.count_append, List.map_cons, List.map_nil]
  cases copy with
  | true =>
    simp only [if_true]
    omega
  | false =>
    simp only [Bool.false_eq_true, if_false]
    omega

theorem Sorted.arrive (hm : m.Sorted reaches) (h : m.arrive reaches i fd copy = some (p, m')) :
    m'.Sorted reaches := by
  obtain ⟨addr, -, hbound, hreaches, rfl⟩ := arrive_eq_some h
  intro q hq
  rcases List.mem_append.mp hq with hq | hq
  · exact hm q hq
  · obtain rfl := List.mem_singleton.mp hq
    exact ⟨addr, hbound, hreaches⟩

theorem count_drop (h : m.drop i = some m') (q : Packet) : m'.count q = m.count q := by
  obtain ⟨p, hp, rfl⟩ := Option.map_eq_some_iff.mp h
  have herase := count_eraseIdx hp q
  simp only [count, List.count_append]
  omega

theorem Sorted.drop (hm : m.Sorted reaches) (h : m.drop i = some m') : m'.Sorted reaches := by
  obtain ⟨p, -, rfl⟩ := Option.map_eq_some_iff.mp h
  exact hm

theorem take_eq_some (h : m.take fd = some (p, m')) :
    ∃ before after, m.queued = before ++ (fd, p) :: after ∧
      m' = { m with queued := before ++ after } := by
  obtain ⟨⟨fd', p'⟩, hq, heq⟩ := Option.map_eq_some_iff.mp h
  obtain ⟨rfl, rfl⟩ := Prod.mk.inj heq
  obtain ⟨hfd, before, after, hsplit, hbefore⟩ := List.find?_eq_some_iff_append.mp hq
  obtain rfl : fd' = fd := by simpa using hfd
  refine ⟨before, after, hsplit, ?_⟩
  rw [hsplit, List.eraseP_append_right _ (by simpa using hbefore),
    List.eraseP_cons_of_pos (by simp)]

theorem count_take (h : m.take fd = some (p, m')) (q : Packet) :
    m.count q = m'.count q + [p].count q := by
  obtain ⟨before, after, hsplit, rfl⟩ := take_eq_some h
  simp only [count, hsplit, List.map_append, List.map_cons, List.count_append]
  rw [← List.singleton_append, List.count_append]
  omega

/-- What is taken from a socket was sent to its address. -/
theorem Sorted.take (hm : m.Sorted reaches) (h : m.take fd = some (p, m')) :
    m'.Sorted reaches ∧ ∃ addr, m.bound fd = some addr ∧ reaches p.addr addr = true := by
  obtain ⟨before, after, hsplit, rfl⟩ := take_eq_some h
  refine ⟨fun q hq => hm q ?_, hm (fd, p) (by simp [hsplit])⟩
  rw [hsplit]
  simp only [List.mem_append, List.mem_cons] at hq ⊢
  tauto

end Traffic

end Mail

end PfsIo
