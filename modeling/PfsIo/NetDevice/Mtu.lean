import PfsIo.Model.NetDevice

/-!
# The MTU of an interface

The two look-ups on a system on which `ioctl` and `/sys/class/net` know the same
interfaces. The one through `ioctl` cuts the name off at the size of the field that it is
copied into, and the other one uses all of it: for a longer name the first reports the
interface that has its beginning for a name.

## Main definitions

* `Interfaces` — a table of interfaces with their MTU.
* `Reflects` — a system that knows the interfaces of a table.

## Main results

* `NetDevice.mtuAlternative0_ok`, `NetDevice.mtuAlternative1_eq` — the two look-ups.
* `NetDevice.mtu_exact_iff` — when they agree, and when `mtu` has the MTU of the interface
  with the name.
-/

namespace PfsIo

open Library

/-- Interfaces by their names, which fit `ifr_name` with a NUL after them. -/
structure Interfaces where
  mtu : Bytes → Option Nat
  named : ∀ name m, mtu name = some m → 1 ≤ name.length ∧ name.length < ifnamsiz
  bounded : ∀ name m, mtu name = some m → m ≤ intMax

namespace Interfaces

/-- The MTU of the interface with exactly this name, or `-1`. -/
def mtuOrFail (table : Interfaces) (name : Bytes) : Int :=
  match table.mtu name with
  | some m => m
  | none => -1

variable (table : Interfaces) {name : Bytes}

theorem mtuOrFail_some {m : Nat} (h : table.mtu name = some m) : table.mtuOrFail name = m := by
  simp [mtuOrFail, h]

theorem mtuOrFail_none (h : table.mtu name = none) : table.mtuOrFail name = -1 := by
  simp [mtuOrFail, h]

theorem mtuOrFail_eq_neg_one : table.mtuOrFail name = -1 ↔ table.mtu name = none := by
  cases h : table.mtu name with
  | none => simp [mtuOrFail, h]
  | some m =>
    rw [mtuOrFail_some table h]
    simp

theorem mtu_of_long (h : ifnamsiz ≤ name.length) : table.mtu name = none := by
  cases hmtu : table.mtu name with
  | none => rfl
  | some m =>
    have hshort := (table.named name m hmtu).2
    omega

end Interfaces

namespace NetDevice

/-- The file with the MTU of an interface. -/
def mtuPath (name : Bytes) : Bytes := sysClassNet ++ name ++ mtuSuffix

end NetDevice

/-- `ioctl` looks up the C string in `ifr_name`, whose last byte it takes for a NUL, and
`/sys/class/net` has a readable file with the MTU for each interface and for no other
name. -/
structure Reflects (env : NetEnv) (table : Interfaces) : Prop where
  ioctl : ∀ ifrName : Bytes, ifrName.length = ifnamsiz → ∀ m, env.siocgifmtu ifrName = .ok m ↔
    ∃ n, table.mtu (cStr (ifrName.take (ifnamsiz - 1))) = some n ∧ m = n
  directory : (env.access NetDevice.sysClassNet .fOk).isOk = true
  readable : ∀ name, 0 ∉ name → 47 ∉ name →
    ((env.access (NetDevice.mtuPath name) .rOk).isOk = true ↔ (table.mtu name).isSome)
  contents : ∀ name m, 0 ∉ name → 47 ∉ name → table.mtu name = some m →
    env.file (NetDevice.mtuPath name) = some (Decimal.text m ++ [10])

/-- The C string in a field that a name has been copied to is the beginning of the name. -/
theorem cStr_take {name : Bytes} (h : 0 ∉ name) (n : Nat) (behind : Bytes) :
    cStr ((name ++ 0 :: behind).take n) = name.take n := by
  have hfree : 0 ∉ name.take n := fun hmem => h (List.mem_of_mem_take hmem)
  have hrest : cStr ((0 :: behind).take (n - name.length)) = [] := by
    cases n - name.length <;> rfl
  rw [List.take_append, cStr_append hfree, hrest, List.append_nil]

theorem not_sign_of_isDigit {b : UInt8} (h : Decimal.isDigit b = true) :
    isSpace b = false ∧ (b == 45) = false ∧ (b == 43) = false := by
  obtain ⟨hlow, -⟩ := of_decide_eq_true h
  have hne : ∀ c : UInt8, c.toNat < 48 → (b == c) = false := by
    rintro c hc
    rw [beq_eq_false_iff_ne]
    rintro rfl
    omega
  refine ⟨?_, hne 45 (by decide), hne 43 (by decide)⟩
  rw [isSpace, hne 32 (by decide), Bool.false_or, decide_eq_false_iff_not]
  omega

/-- Numbers are read from a file as they are printed into it. -/
theorem extractInt_text {m : Nat} (h : m ≤ intMax) (result : Int) :
    extractInt (Decimal.text m ++ [10]) result = m := by
  have hdigits : (Decimal.text m ++ [10]).takeWhile Decimal.isDigit = Decimal.text m :=
    Decimal.takeWhile_text m rfl []
  obtain ⟨b, rest, htext⟩ := List.exists_cons_of_ne_nil (Decimal.text_ne_nil m)
  have hb : Decimal.isDigit b = true := Decimal.isDigit_of_mem_text (by rw [htext]; simp)
  obtain ⟨hspace, hminus, hplus⟩ := not_sign_of_isDigit hb
  have hvalue : Decimal.value (Decimal.text m) = m := Decimal.value_text m
  rw [htext] at hdigits hvalue ⊢
  rw [List.cons_append] at hdigits ⊢
  have hskip : (b :: (rest ++ [10])).dropWhile isSpace = b :: (rest ++ [10]) :=
    List.dropWhile_cons_of_neg (by simp [hspace])
  have hclamp : clampInt m = m := by
    unfold clampInt intMax at *
    omega
  simp only [extractInt, hskip, hminus, hplus, Bool.or_self, Bool.false_eq_true, if_false, hdigits,
    hvalue, hclamp]

namespace NetDevice

variable {env : NetEnv} {table : Interfaces} {name : Bytes}

theorem length_ifrName (mem : Leftover) (name : Bytes) :
    (ifrName mem name).length = ifnamsiz := by
  rw [ifrName, length_memcpy, mem.ifrName_size]

/-- What `ioctl` finds in `ifr_name` is the beginning of the name. -/
theorem cStr_ifrName (mem : Leftover) (hnul : 0 ∉ name) :
    cStr ((ifrName mem name).take (ifnamsiz - 1)) = name.take (ifnamsiz - 1) := by
  have hlength : ((name ++ 0 :: mem.behind).take (ifnamsiz - 1)).length = ifnamsiz - 1 := by
    rw [List.length_take_of_le]
    simp only [List.length_append, List.length_cons, mem.behind_size]
    omega
  have hroom : ((name ++ 0 :: mem.behind).take (ifnamsiz - 1)).length ≤ mem.ifrName.length := by
    rw [hlength, mem.ifrName_size]
    omega
  have hcopy := take_memcpy hroom
  rw [hlength] at hcopy
  rw [ifrName, hcopy, cStr_take hnul]

/-- The look-up by `ioctl` is for the beginning of the name. -/
theorem mtuAlternative0_ok (h : Reflects env table) (hnul : 0 ∉ name) (mem : Leftover) (os : Os)
    (a : Alloc) (close : Reply) :
    (mtuAlternative0 env mem name os (.ok a) close).rc =
      table.mtuOrFail (name.take (ifnamsiz - 1)) := by
  have hlookup := h.ioctl (ifrName mem name) (length_ifrName mem name)
  rw [cStr_ifrName mem hnul] at hlookup
  have hfd : ¬ a.pick os.opened < 0 := Int.not_lt.mpr (a.nonneg _)
  simp only [mtuAlternative0, Os.newFd_ok, hfd, if_false]
  cases hmtu : table.mtu (name.take (ifnamsiz - 1)) with
  | some m => simp only [(hlookup m).mpr ⟨m, hmtu, rfl⟩, table.mtuOrFail_some hmtu]
  | none =>
    rw [table.mtuOrFail_none hmtu]
    cases hget : env.siocgifmtu (ifrName mem name) with
    | error e => rfl
    | ok m =>
      obtain ⟨n, hn, -⟩ := (hlookup m).mp hget
      simp [hmtu] at hn

theorem mtuAlternative0_error (env : NetEnv) (mem : Leftover) (name : Bytes) (os : Os) (e : ℕ+)
    (close : Reply) : (mtuAlternative0 env mem name os (.error e) close).rc = -1 := rfl

/-- The look-up in `/sys/class/net` is for all of the name. -/
theorem mtuAlternative1_eq (h : Reflects env table) (hnul : 0 ∉ name) (hslash : 47 ∉ name) :
    mtuAlternative1 env name = table.mtuOrFail name := by
  have hroot : cStr sysClassNet = sysClassNet := by decide
  have hpath : cStr (sysClassNet ++ name ++ mtuSuffix) = mtuPath name := by
    refine cStr_of_not_mem ?_
    simp [sysClassNet, mtuSuffix, hnul]
  have hread := h.readable name hnul hslash
  simp only [mtuAlternative1, hroot, hpath, h.directory, Bool.true_eq_false, if_false]
  cases hmtu : table.mtu name with
  | none =>
    have hrefused : (env.access (mtuPath name) .rOk).isOk = false := by
      rw [Bool.eq_false_iff, ne_eq, hread, hmtu]
      simp
    rw [if_pos hrefused, table.mtuOrFail_none hmtu]
  | some m =>
    have hgranted : (env.access (mtuPath name) .rOk).isOk = true := by
      rw [hread, hmtu]
      rfl
    rw [hgranted, if_neg (by simp), h.contents name m hnul hslash hmtu, table.mtuOrFail_some hmtu]
    exact extractInt_text (table.bounded name m hmtu) (-1)

theorem mtu_rc (env : NetEnv) (mem : Leftover) (name : Bytes) (os : Os) (socket : FdReply)
    (close : Reply) :
    (mtu env mem name os socket close).rc =
      if (mtuAlternative0 env mem name os socket close).rc < 0 then mtuAlternative1 env name
      else (mtuAlternative0 env mem name os socket close).rc := by
  simp only [mtu, apply_ite Sys.rc]

/-- A name that is too long for an interface and begins with the name of one. -/
def Shadowed (table : Interfaces) (name : Bytes) : Prop :=
  ifnamsiz ≤ name.length ∧ (table.mtu (name.take (ifnamsiz - 1))).isSome

theorem mtuOrFail_take_iff :
    table.mtuOrFail (name.take (ifnamsiz - 1)) = table.mtuOrFail name ↔ ¬ Shadowed table name := by
  rcases Nat.lt_or_ge name.length ifnamsiz with hshort | hlong
  · have hsame : name.take (ifnamsiz - 1) = name := List.take_of_length_le (by omega)
    rw [hsame]
    exact iff_of_true rfl fun hshadowed => by
      have hlong := hshadowed.1
      omega
  · rw [table.mtuOrFail_none (table.mtu_of_long hlong), table.mtuOrFail_eq_neg_one]
    simp [Shadowed, hlong]

/-- Both look-ups and their combination find the interface with exactly this name. -/
def Exact (table : Interfaces) (env : NetEnv) (mem : Leftover) (name : Bytes) (os : Os)
    (socket : FdReply) (close : Reply) : Prop :=
  (mtuAlternative0 env mem name os socket close).rc = table.mtuOrFail name ∧
    mtuAlternative1 env name = table.mtuOrFail name ∧
    (mtu env mem name os socket close).rc = table.mtuOrFail name

/-- The look-ups agree on the interface with exactly the name, or its absence, unless the name
is too long for an interface and begins with the name of one. Without a socket the first of
them fails, and they agree when there is no interface with the name. `mtu` reports another
interface in the first case only. -/
theorem mtu_exact_iff (table : Interfaces) (env : NetEnv) (mem : Leftover) (name : Bytes)
    (os : Os) (socket : FdReply) (close : Reply) (hreflects : Reflects env table)
    (hnul : 0 ∉ name) (hslash : 47 ∉ name) :
    (Exact table env mem name os socket close ↔
      (socket.isOk = true → ¬ Shadowed table name) ∧
        (socket.isOk = false → table.mtu name = none)) ∧
    ((mtu env mem name os socket close).rc = table.mtuOrFail name ↔
      ¬ (socket.isOk = true ∧ Shadowed table name)) := by
  have hsys := mtuAlternative1_eq hreflects hnul hslash
  have hmtu := mtu_rc env mem name os socket close
  cases socket with
  | error e =>
    have hfail : -1 = table.mtuOrFail name ↔ table.mtu name = none :=
      eq_comm.trans table.mtuOrFail_eq_neg_one
    rw [mtuAlternative0_error, if_pos (by omega), hsys] at hmtu
    simp [Exact, mtuAlternative0_error, hsys, hmtu, hfail]
  | ok a =>
    have hioctl := mtuAlternative0_ok hreflects hnul mem os a close
    have hsame : table.mtuOrFail (name.take (ifnamsiz - 1)) = table.mtuOrFail name ↔
      ¬ Shadowed table name := mtuOrFail_take_iff
    rw [hioctl, hsys] at hmtu
    -- where the first look-up fails there is nothing to shadow the name
    have hboth : (mtu env mem name os (.ok a) close).rc = table.mtuOrFail name ↔
        ¬ Shadowed table name := by
      by_cases hneg : table.mtuOrFail (name.take (ifnamsiz - 1)) < 0
      · rw [hmtu, if_pos hneg]
        refine iff_of_true rfl fun hshadowed => ?_
        obtain ⟨m, hm⟩ := Option.isSome_iff_exists.mp hshadowed.2
        rw [table.mtuOrFail_some hm] at hneg
        omega
      · rw [hmtu, if_neg hneg, hsame]
    simp only [Exact, hioctl, hsys, hboth, hsame, isOk_ok, true_and, and_self, forall_const,
      Bool.true_eq_false, false_implies, and_true]

/-- The name in a path of a file with the MTU. -/
def deviceOf (path : Bytes) : Option Bytes :=
  let name := (path.drop sysClassNet.length).take
    (path.length - (sysClassNet.length + mtuSuffix.length))
  if path = mtuPath name then some name else none

theorem deviceOf_mtuPath (name : Bytes) : deviceOf (mtuPath name) = some name := by
  have hlength : (mtuPath name).length - (sysClassNet.length + mtuSuffix.length) =
      name.length := by
    simp only [mtuPath, List.length_append]
    omega
  have hname : ((mtuPath name).drop sysClassNet.length).take name.length = name := by
    rw [mtuPath, List.append_assoc, List.drop_left, List.take_left]
  simp only [deviceOf, hlength, hname, if_true]

/-- A system that has the interfaces of the table. -/
def sysfs (table : Interfaces) : NetEnv where
  siocgifmtu ifrName := match table.mtu (cStr (ifrName.take (ifnamsiz - 1))) with
    | some m => .ok m
    | none => .error 19
  access path mode := match mode with
    | .fOk => if path = sysClassNet then .ok () else .error ⟨Errno.enoent, Nat.two_pos⟩
    | .rOk =>
      if ((deviceOf path).bind table.mtu).isSome then .ok ()
      else .error ⟨Errno.enoent, Nat.two_pos⟩
  file path := ((deviceOf path).bind table.mtu).map fun m => Decimal.text m ++ [10]

theorem sysfs_reflects (table : Interfaces) : Reflects (sysfs table) table := by
  refine ⟨?_, ?_, ?_, ?_⟩
  · intro ifrName _ m
    cases hmtu : table.mtu (cStr (ifrName.take (ifnamsiz - 1))) with
    | none => simp [sysfs, hmtu]
    | some n =>
      have hvalue : (n : Int) = m ↔ m = n := eq_comm
      simp [sysfs, hmtu, hvalue]
  · simp [sysfs]
  · intro name _ _
    simp only [sysfs, deviceOf_mtuPath, Option.bind_some]
    cases table.mtu name with
    | none => exact iff_of_false Bool.false_ne_true Bool.false_ne_true
    | some n => exact iff_of_true rfl rfl
  · intro name m _ _ hmtu
    simp [sysfs, deviceOf_mtuPath, hmtu]

/-- Fifteen letters, as many as the name of an interface can have. -/
def longName : Bytes := [97, 98, 99, 100, 101, 102, 103, 104, 105, 106, 107, 108, 109, 110, 111]

/-- A table with one interface. -/
def oneInterface : Interfaces where
  mtu name := if name = longName then some 1500 else none
  named name m h := by
    split at h
    case isTrue hname => exact hname ▸ by decide
    case isFalse => cases h
  bounded name m h := by
    split at h
    case isTrue => exact Option.some.inj h ▸ by decide
    case isFalse => cases h

/-- Memory with nothing but zeros. -/
def zeroLeftover : Leftover :=
  ⟨List.replicate 16 0, List.replicate 16 0, List.length_replicate, List.length_replicate⟩

theorem mtu_exact_one :
    Exact oneInterface (sysfs oneInterface) zeroLeftover longName ⟨∅, 0, []⟩ (.ok (.prefer 3))
        (.ok ()) ∧
      (mtu (sysfs oneInterface) zeroLeftover longName ⟨∅, 0, []⟩ (.ok (.prefer 3)) (.ok ())).rc =
        1500 := by
  obtain ⟨hexact, hmtu⟩ := mtu_exact_iff oneInterface (sysfs oneInterface) zeroLeftover longName
    ⟨∅, 0, []⟩ (.ok (.prefer 3)) (.ok ()) (sysfs_reflects _) (by decide) (by decide)
  have hshort : ¬ Shadowed oneInterface longName := fun h => absurd h.1 (by decide)
  exact ⟨hexact.mpr ⟨fun _ => hshort, fun h => by cases h⟩, hmtu.mpr fun h => hshort h.2⟩

/-- A name of sixteen letters has the MTU of the interface with the first fifteen of them by
`ioctl`, and none in `/sys/class/net`. -/
theorem not_mtu_exact_longer :
    0 ∉ longName ++ [112] ∧ 47 ∉ longName ++ [112] ∧ Reflects (sysfs oneInterface) oneInterface ∧
      (mtuAlternative0 (sysfs oneInterface) zeroLeftover (longName ++ [112]) ⟨∅, 0, []⟩
        (.ok (.prefer 3)) (.ok ())).rc = 1500 ∧
      mtuAlternative1 (sysfs oneInterface) (longName ++ [112]) = -1 ∧
      (mtu (sysfs oneInterface) zeroLeftover (longName ++ [112]) ⟨∅, 0, []⟩
        (.ok (.prefer 3)) (.ok ())).rc = 1500 ∧
      ¬ Exact oneInterface (sysfs oneInterface) zeroLeftover (longName ++ [112]) ⟨∅, 0, []⟩
        (.ok (.prefer 3)) (.ok ()) :=
  ⟨by decide, by decide, sysfs_reflects _, by decide, by decide, by decide,
    fun hexact => absurd hexact.1 (by decide)⟩

end NetDevice

end PfsIo
