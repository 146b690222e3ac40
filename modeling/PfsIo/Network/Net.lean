import PfsIo.Library.Machine
import PfsIo.Objects.Spared

/-!
# Stream sockets and their connections

What the kernel keeps of the stream sockets of a process: the addresses that they are bound to, the
connections that wait at the listening ones, and the end that each connected one is. It is changed
by the logged calls, and rules out answers that the kernel does not give: a call of `connect`
succeeds if a listening socket can be reached, and one of `accept` if a connection waits.

## Main definitions

* `End` — one end of a connection.
* `Net.next` — the effect of a call.
* `Net.Sound` — the invariant.

## Main results

* `Net.Sound.next` — no two sockets are the same end.
* `Net.keeps_run` — the calls about other sockets.
-/

namespace PfsIo

open Library

/-- The end of a connection that has connected, or the one that was accepted. -/
structure End where
  conn : Nat
  accepted : Bool
  deriving DecidableEq

def End.other (e : End) : End := ⟨e.conn, !e.accepted⟩

structure Net where
  bound : Int → Option Bytes
  /-- The connections that wait at a listening socket. -/
  waiting : Int → Option (List Nat)
  ends : Int → Option End
  /-- The addresses that were connected to, one for each connection. -/
  dialled : List Bytes

namespace Net

def start : Net := ⟨fun _ => none, fun _ => none, fun _ => none, []⟩

/-- Whether an address is that of a local socket with the path. -/
def isPath (path addr : Bytes) : Bool := addr.take 2 = [1, 0] ∧ cStr (addr.drop 2) = path

/-- A connection from the socket `fd` waits at the socket `l`. -/
def connect (net : Net) (fd l : Int) (addr : Bytes) (conns : List Nat) : Net :=
  { net with
    waiting := Function.update net.waiting l (some (conns ++ [net.dialled.length]))
    ends := Function.update net.ends fd (some ⟨net.dialled.length, false⟩)
    dialled := net.dialled ++ [addr] }

/-- The connection `c`, the first one that waits at `l`, is given to the socket `fd`. -/
def accept (net : Net) (l fd : Int) (c : Nat) (conns : List Nat) : Net :=
  { net with
    waiting := Function.update net.waiting l (some conns)
    ends := Function.update net.ends fd (some ⟨c, true⟩) }

/-- The descriptor is no socket any more, or one that is new; the connections that wait at a socket
are lost with it. -/
def reset (net : Net) (fd : Int) : Net :=
  { net with
    bound := Function.update net.bound fd none
    waiting := Function.update net.waiting fd none
    ends := Function.update net.ends fd none }

/-- The effect of a call, if the kernel can give its answer; `l` is the socket that a connection
goes to, and `reaches` tells from which addresses those of bound sockets are reached. -/
def next (reaches : Bytes → Bytes → Bool) (l : Int) : Machine Net Call
  | net, .bind fd addr rc =>
    some (if rc = 0 then { net with bound := Function.update net.bound fd (some addr) } else net)
  | net, .listen fd _ rc =>
    let conns := (net.waiting fd).getD []
    some (if rc = 0 ∧ 0 ≤ fd then
        { net with waiting := Function.update net.waiting fd (some conns) }
      else net)
  | net, .connect fd addr rc =>
    if rc = 0 then
      match net.bound l, net.waiting l with
      | some addr', some conns =>
        if reaches addr addr' then some (net.connect fd l addr conns) else none
      | _, _ => none
    else some net
  | net, .accept l rc =>
    if 0 ≤ rc then
      match net.waiting l with
      | some (c :: conns) => some (net.accept l rc c conns)
      | _ => none
    else some net
  | net, .unlink path rc =>
    some (if rc = 0 then
        { net with bound := fun fd => (net.bound fd).filter fun addr => !isPath path addr }
      else net)
  | net, .socket _ _ _ rc => some (if 0 ≤ rc then net.reset rc else net)
  | net, .close fd _ _ => some (net.reset fd)
  | net, _ => some net

/-- The kernel finds a local socket by its path, and others by `inet`. -/
def routes (inet : Bytes → Bytes → Bool) (addr addr' : Bytes) : Bool :=
  if addr.take 2 = [1, 0] then isPath (cStr (addr.drop 2)) addr' else inet addr addr'

/-- What calls leave of a socket that they are not about: its end, and its address unless that is
unlinked; connections come in that were made to its address. -/
structure Keeps (reaches : Bytes → Bytes → Bool) (fd : Int) (net net' : Net) : Prop where
  ends : net'.ends fd = net.ends fd
  bound : net'.bound fd = net.bound fd ∨ net'.bound fd = none
  dialled : net.dialled <+: net'.dialled
  waiting : ∀ conns', net'.waiting fd = some conns' → ∃ conns, net.waiting fd = some conns ∧
    ∀ c ∈ conns', c ∈ conns ∨ ∃ addr addr', net'.dialled[c]? = some addr ∧
      net.bound fd = some addr' ∧ reaches addr addr' = true

/-- No two sockets are the same end, and no connection waits twice, or after it was accepted. -/
structure Sound (net : Net) : Prop where
  ends_lt : ∀ fd e, net.ends fd = some e → e.conn < net.dialled.length
  ends_inj : ∀ fd fd' e, net.ends fd = some e → net.ends fd' = some e → fd = fd'
  waiting_nonneg : ∀ l conns, net.waiting l = some conns → 0 ≤ l
  waiting_lt : ∀ l conns, net.waiting l = some conns → ∀ c ∈ conns, c < net.dialled.length
  waiting_nodup : ∀ l conns, net.waiting l = some conns → conns.Nodup
  waiting_inj : ∀ l l' conns conns', net.waiting l = some conns → net.waiting l' = some conns' →
    ∀ c ∈ conns, c ∈ conns' → l = l'
  waiting_fresh : ∀ l conns, net.waiting l = some conns → ∀ c ∈ conns, ∀ fd,
    net.ends fd ≠ some ⟨c, true⟩

variable {reaches : Bytes → Bytes → Bool} {net net' net'' : Net} {fd l : Int} {call : Call}
  {calls : List Call}

theorem Sound.start : Sound start := by
  constructor <;> simp [Net.start]

theorem Sound.connect (h : net.Sound) {conns : List Nat} (hl : net.waiting l = some conns)
    (addr : Bytes) : (net.connect fd l addr conns).Sound := by
  obtain ⟨ends_lt, ends_inj, nonneg, waiting_lt, waiting_nodup, waiting_inj, waiting_fresh⟩ := h
  constructor
  all_goals simp only [Net.connect, Function.update_apply, List.length_append,
    List.length_singleton]
  all_goals grind

theorem Sound.accept (h : net.Sound) {c : Nat} {conns : List Nat}
    (hl : net.waiting l = some (c :: conns)) : (net.accept l fd c conns).Sound := by
  obtain ⟨ends_lt, ends_inj, nonneg, waiting_lt, waiting_nodup, waiting_inj, waiting_fresh⟩ := h
  have hlt := waiting_lt l _ hl c List.mem_cons_self
  have hfresh := waiting_fresh l _ hl c List.mem_cons_self
  have hnodup := List.nodup_cons.mp (waiting_nodup l _ hl)
  have hinj : ∀ l' conns', net.waiting l' = some conns' → c ∈ conns' → l = l' :=
    fun l' conns' hl' => waiting_inj l l' _ conns' hl hl' c List.mem_cons_self
  constructor
  all_goals simp only [Net.accept, Function.update_apply]
  all_goals grind

theorem Sound.reset (h : net.Sound) (fd : Int) : (net.reset fd).Sound := by
  obtain ⟨ends_lt, ends_inj, nonneg, waiting_lt, waiting_nodup, waiting_inj, waiting_fresh⟩ := h
  constructor
  all_goals simp only [Net.reset, Function.update_apply]
  all_goals grind

theorem Sound.listen (h : net.Sound) {fd : Int} (hfd : 0 ≤ fd) :
    Sound { net with
      waiting := Function.update net.waiting fd (some ((net.waiting fd).getD [])) } := by
  obtain ⟨ends_lt, ends_inj, nonneg, waiting_lt, waiting_nodup, waiting_inj, waiting_fresh⟩ := h
  cases hwaiting : net.waiting fd with
  | none =>
    constructor
    all_goals simp only [Function.update_apply, Option.getD_none]
    all_goals grind
  | some conns =>
    have hsame : Function.update net.waiting fd (some ((some conns).getD [])) = net.waiting :=
      Function.update_eq_self_iff.mpr hwaiting.symm
    rw [hsame]
    exact ⟨ends_lt, ends_inj, nonneg, waiting_lt, waiting_nodup, waiting_inj, waiting_fresh⟩

/-- The addresses of the sockets do not matter. -/
theorem Sound.congr (h : net.Sound) (bound : Int → Option Bytes) :
    Sound { net with bound := bound } :=
  ⟨h.ends_lt, h.ends_inj, h.waiting_nonneg, h.waiting_lt, h.waiting_nodup, h.waiting_inj,
    h.waiting_fresh⟩

theorem next_connect_eq_some {addr : Bytes} {rc : Int}
    (h : next reaches l net (.connect fd addr rc) = some net') :
    rc ≠ 0 ∧ net' = net ∨ rc = 0 ∧ ∃ addr' conns, net.bound l = some addr' ∧
      net.waiting l = some conns ∧ reaches addr addr' = true ∧
      net' = net.connect fd l addr conns := by
  simp only [next] at h
  split at h
  · next hrc =>
    split at h
    · next addr' conns hbound hwaiting =>
      obtain ⟨hreaches, h⟩ := Option.ite_none_right_eq_some.mp h
      exact .inr ⟨hrc, addr', conns, hbound, hwaiting, hreaches, (Option.some.inj h).symm⟩
    · cases h
  · next hrc => exact .inl ⟨hrc, (Option.some.inj h).symm⟩

theorem next_accept_eq_some {server rc : Int}
    (h : next reaches l net (.accept server rc) = some net') :
    rc < 0 ∧ net' = net ∨ 0 ≤ rc ∧ ∃ c conns, net.waiting server = some (c :: conns) ∧
      net' = net.accept server rc c conns := by
  simp only [next] at h
  split at h
  · next hrc =>
    split at h
    · next c conns hwaiting =>
      exact .inr ⟨hrc, c, conns, hwaiting, (Option.some.inj h).symm⟩
    · cases h
  · next hrc => exact .inl ⟨by omega, (Option.some.inj h).symm⟩

theorem Sound.next (h : net.Sound) (hnext : next reaches l net call = some net') :
    net'.Sound := by
  cases call with
  | bind fd addr rc =>
    obtain rfl := Option.some.inj hnext
    split
    · exact h.congr _
    · exact h
  | listen fd n rc =>
    obtain rfl := Option.some.inj hnext
    split
    · next hfd => exact h.listen hfd.2
    · exact h
  | connect fd addr rc =>
    rcases next_connect_eq_some hnext with ⟨-, rfl⟩ | ⟨-, addr', conns, -, hwaiting, -, rfl⟩
    · exact h
    · exact h.connect hwaiting addr
  | accept server rc =>
    rcases next_accept_eq_some hnext with ⟨-, rfl⟩ | ⟨-, c, conns, hwaiting, rfl⟩
    · exact h
    · exact h.accept hwaiting
  | unlink path rc =>
    obtain rfl := Option.some.inj hnext
    split
    · exact h.congr _
    · exact h
  | close fd wasOpen rc =>
    obtain rfl := Option.some.inj hnext
    exact h.reset fd
  | socket family socktype protocol rc =>
    obtain rfl := Option.some.inj hnext
    split
    · exact h.reset rc
    · exact h
  | _ =>
    obtain rfl := Option.some.inj hnext
    exact h

theorem Sound.run (h : net.Sound) (hrun : Machine.run (Net.next reaches l) net calls = some net') :
    net'.Sound :=
  Machine.run_keeps (fun _ _ _ hs hst => hs.next hst) h hrun

theorem getElem?_of_grown {α : Type*} {xs ys : List α} (h : xs <+: ys) {i : Nat} {a : α}
    (ha : xs[i]? = some a) : ys[i]? = some a := by
  obtain ⟨zs, rfl⟩ := h
  grind

theorem Keeps.of_waiting (fd : Int) (hends : net'.ends fd = net.ends fd)
    (hbound : net'.bound fd = net.bound fd ∨ net'.bound fd = none)
    (hdialled : net.dialled <+: net'.dialled) (hwaiting : net'.waiting fd = net.waiting fd) :
    Keeps reaches fd net net' :=
  ⟨hends, hbound, hdialled, fun conns h => ⟨conns, hwaiting ▸ h, fun _ hc => .inl hc⟩⟩

theorem Keeps.refl (reaches : Bytes → Bytes → Bool) (fd : Int) (net : Net) :
    Keeps reaches fd net net :=
  .of_waiting fd rfl (.inl rfl) (List.prefix_refl _) rfl

theorem Keeps.trans (h : Keeps reaches fd net net') (h' : Keeps reaches fd net' net'') :
    Keeps reaches fd net net'' := by
  refine ⟨h'.ends.trans h.ends, ?_, h.dialled.trans h'.dialled, fun conns'' hconns'' => ?_⟩
  · rcases h'.bound with heq | hnone
    · rw [heq]
      exact h.bound
    · exact .inr hnone
  · obtain ⟨conns', hconns', hnew'⟩ := h'.waiting conns'' hconns''
    obtain ⟨conns, hconns, hnew⟩ := h.waiting conns' hconns'
    refine ⟨conns, hconns, fun c hc => ?_⟩
    rcases hnew' c hc with hold | ⟨addr, addr', haddr, hbound, hreaches⟩
    · rcases hnew c hold with hold | ⟨addr, addr', haddr, hbound, hreaches⟩
      · exact .inl hold
      · exact .inr ⟨addr, addr', getElem?_of_grown h'.dialled haddr, hbound, hreaches⟩
    · refine .inr ⟨addr, addr', haddr, ?_, hreaches⟩
      rcases h.bound with heq | hnone
      · exact heq ▸ hbound
      · simp [hnone] at hbound

theorem Keeps.reset {fd' : Int} (h : fd' ≠ fd) : Keeps reaches fd net (net.reset fd') := by
  refine .of_waiting fd ?_ (.inl ?_) (List.prefix_refl _) ?_
  all_goals exact Function.update_of_ne h.symm _ _

theorem Keeps.connect {fd' : Int} {addr addr' : Bytes} {conns : List Nat} (h : fd' ≠ fd)
    (hbound : net.bound l = some addr') (hwaiting : net.waiting l = some conns)
    (hreaches : reaches addr addr' = true) :
    Keeps reaches fd net (net.connect fd' l addr conns) := by
  refine ⟨Function.update_of_ne h.symm _ _, .inl rfl, List.prefix_append _ _, ?_⟩
  intro conns' hconns'
  simp only [Net.connect, Function.update_apply] at hconns'
  split at hconns'
  · next heq =>
    obtain rfl := heq
    obtain rfl := Option.some.inj hconns'
    refine ⟨conns, hwaiting, fun c hc => ?_⟩
    rcases List.mem_append.mp hc with hc | hc
    · exact .inl hc
    · obtain rfl := List.mem_singleton.mp hc
      exact .inr ⟨addr, addr', by simp [Net.connect], hbound, hreaches⟩
  · exact ⟨conns', hconns', fun _ hc => .inl hc⟩

theorem Keeps.accept {server fd' : Int} {c : Nat} {conns : List Nat} (h : fd' ≠ fd)
    (hwaiting : net.waiting server = some (c :: conns)) :
    Keeps reaches fd net (net.accept server fd' c conns) := by
  refine ⟨Function.update_of_ne h.symm _ _, .inl rfl, List.prefix_refl _, fun conns' hconns' => ?_⟩
  simp only [Net.accept, Function.update_apply] at hconns'
  split at hconns'
  · next heq =>
    obtain rfl := heq
    obtain rfl := Option.some.inj hconns'
    exact ⟨_, hwaiting, fun _ hc => .inl (List.mem_cons_of_mem c hc)⟩
  · exact ⟨conns', hconns', fun _ hc => .inl hc⟩

theorem Keeps.next (hcall : call.subject ≠ some fd)
    (hnext : next reaches l net call = some net') : Keeps reaches fd net net' := by
  cases call with
  | bind fd' addr rc =>
    obtain rfl := Option.some.inj hnext
    split
    · refine .of_waiting fd rfl (.inl (Function.update_of_ne ?_ _ _)) (List.prefix_refl _) rfl
      rintro rfl
      exact hcall rfl
    · exact .refl reaches fd net
  | listen fd' n rc =>
    obtain rfl := Option.some.inj hnext
    split
    · refine .of_waiting fd rfl (.inl rfl) (List.prefix_refl _) (Function.update_of_ne ?_ _ _)
      rintro rfl
      exact hcall rfl
    · exact .refl reaches fd net
  | connect fd' addr rc =>
    rcases next_connect_eq_some hnext with ⟨-, rfl⟩ | ⟨-, addr', conns, hbound, hwaiting, hr, rfl⟩
    · exact .refl reaches fd _
    · refine .connect ?_ hbound hwaiting hr
      rintro rfl
      exact hcall rfl
  | accept server rc =>
    rcases next_accept_eq_some hnext with ⟨-, rfl⟩ | ⟨hrc, c, conns, hwaiting, rfl⟩
    · exact .refl reaches fd _
    · refine .accept ?_ hwaiting
      rintro rfl
      exact hcall (if_pos hrc)
  | unlink path rc =>
    obtain rfl := Option.some.inj hnext
    split
    · refine .of_waiting fd rfl ?_ (List.prefix_refl _) rfl
      show (net.bound fd).filter _ = net.bound fd ∨ (net.bound fd).filter _ = none
      cases net.bound fd with
      | none => exact .inl rfl
      | some addr =>
        rw [Option.filter_some]
        split
        · exact .inl rfl
        · exact .inr rfl
    · exact .refl reaches fd net
  | close fd' wasOpen rc =>
    obtain rfl := Option.some.inj hnext
    refine .reset ?_
    rintro rfl
    exact hcall rfl
  | socket family socktype protocol rc =>
    obtain rfl := Option.some.inj hnext
    split
    · next hrc =>
      refine .reset ?_
      rintro rfl
      exact hcall (if_pos hrc)
    · exact .refl reaches fd net
  | _ =>
    obtain rfl := Option.some.inj hnext
    exact .refl reaches fd _

/-- Calls that spare a socket keep its end. -/
theorem keeps_run {os os' : Os} (h : Spares os os' fd)
    (hrun : Machine.run (Net.next reaches l) net (callsSince os os') = some net') :
    Keeps reaches fd net net' :=
  h.run (Keeps reaches fd) (.refl reaches fd) (fun _ _ _ => .trans) (fun _ _ _ => .next) hrun

/-- The socket of a successful call of `connect`. -/
theorem ends_run_connect {addr : Bytes}
    (hrun : Machine.run (Net.next reaches l) net (calls ++ [.connect fd addr 0]) = some net') :
    ∃ c, net'.ends fd = some ⟨c, false⟩ ∧ net'.dialled[c]? = some addr := by
  rw [Machine.run_append] at hrun
  obtain ⟨mid, -, hlast⟩ := Option.bind_eq_some_iff.mp hrun
  obtain ⟨net', hnext, heq⟩ := Machine.run_cons_eq_some.mp hlast
  obtain rfl := Option.some.inj heq
  rcases next_connect_eq_some hnext with ⟨hne, -⟩ | ⟨-, addr', conns, -, -, -, rfl⟩
  · exact absurd rfl hne
  · exact ⟨mid.dialled.length, Function.update_self _ _ _, by simp [connect]⟩

/-- The socket of a successful call of `accept` has got the first connection that waited. -/
theorem ends_run_accept {server : Int} (hfd : 0 ≤ fd)
    (hrun : Machine.run (Net.next reaches l) net [.accept server fd] = some net') :
    ∃ c conns, net.waiting server = some (c :: conns) ∧ net'.ends fd = some ⟨c, true⟩ ∧
      net'.dialled = net.dialled := by
  obtain ⟨net', hnext, heq⟩ := Machine.run_cons_eq_some.mp hrun
  obtain rfl := Option.some.inj heq
  rcases next_accept_eq_some hnext with ⟨hneg, -⟩ | ⟨-, c, conns, hwaiting, rfl⟩
  · omega
  · exact ⟨c, conns, hwaiting, Function.update_self _ _ _, rfl⟩

/-- A new socket that is bound and listens; the call before `bind` is about addresses only. -/
theorem bound_run_listen (hfd : 0 ≤ fd) {family socktype protocol : Nat} {mid : Call}
    {addr : Bytes} {n : Int}
    (hmid : ∀ net, ∃ bound, next reaches l net mid = some { net with bound := bound })
    (hrun : Machine.run (Net.next reaches l) net
      [.socket family socktype protocol fd, mid, .bind fd addr 0, .listen fd n 0] = some net') :
    net'.bound fd = some addr ∧ net'.waiting fd = some [] := by
  obtain ⟨net₁, hsocket, hrun⟩ := Machine.run_cons_eq_some.mp hrun
  obtain rfl : net.reset fd = net₁ := by simpa [next, hfd] using hsocket
  obtain ⟨net₂, hnext, hrun⟩ := Machine.run_cons_eq_some.mp hrun
  obtain ⟨bound, hbound⟩ := hmid (net.reset fd)
  obtain rfl := Option.some.inj (hbound.symm.trans hnext)
  obtain rfl := Option.some.inj hrun
  simp [hfd, reset]

/-- A new socket that is neither bound nor listens. -/
theorem waiting_run_socket (hfd : 0 ≤ fd) {family socktype protocol : Nat} {rc : Int}
    (hrun : Machine.run (Net.next reaches l) net
      [.socket family socktype protocol fd, .setReuseAddr fd rc] = some net') :
    net'.waiting fd = none := by
  obtain rfl := Option.some.inj hrun
  simp [hfd, reset]

end Net

end PfsIo
