import IppUsb.Transport.Read

/-!
# `Loopback`: the index of the loopback interface

`Loopback` walks the interfaces `net.Interfaces()` lists and, for each, the addresses its
`Addrs()` returns; it returns the `Index` of the first interface holding an `*net.IPNet` whose
IP `IsLoopback`.  One variable `err` takes the result of `net.Interfaces()` and then of each
`iface.Addrs()`, each call overwriting it.  So when no interface matches, the error returned
names the error of `net.Interfaces()`, else that of the last interface's `Addrs()`, else
`not found`: an earlier interface whose `Addrs()` failed is not reported.

`IP.To4`, `IP.Equal` and `IP.IsLoopback` are those of the Go library's `net` package, over
the bytes of the IP.

* `ipIsLoopback`        `ip.IsLoopback()`;
* `loopback`            `Loopback()`, its two loops as the code has them;
* `loopbackSpec`        what it does, said without loops;
* `loopback_eq_spec`    the two agree on every list of interfaces.
-/

namespace IppUsb

/-! ## the `net` package -/

/-- `v4InV6Prefix`, the first 12 bytes of an IPv4-mapped IPv6 address -/
def v4InV6Prefix : List UInt8 := [0, 0, 0, 0, 0, 0, 0, 0, 0, 0, 0xff, 0xff]

/-- `IPv6loopback`, `::1` -/
def ipv6Loopback : List UInt8 := [0, 0, 0, 0, 0, 0, 0, 0, 0, 0, 0, 0, 0, 0, 0, 1]

/-- `ip.To4()`: a 4-byte IP as it is, the last four bytes of an IPv4-mapped 16-byte IP, `nil`
otherwise -/
def ipTo4 (ip : List UInt8) : Option (List UInt8) :=
  if ip.length = 4 then some ip
  else if ip.length = 16 ∧ ip.take 10 = List.replicate 10 0 ∧ ip.getD 10 0 = 0xff ∧
      ip.getD 11 0 = 0xff then some (ip.drop 12)
  else none

/-- `ip.Equal(x)`: the same bytes, or the same IPv4 address in its two forms -/
def ipEqual (ip x : List UInt8) : Bool :=
  if ip.length = x.length then ip == x
  else if ip.length = 4 ∧ x.length = 16 then x.take 12 == v4InV6Prefix && ip == x.drop 12
  else if ip.length = 16 ∧ x.length = 4 then ip.take 12 == v4InV6Prefix && ip.drop 12 == x
  else false

/-- `ip.IsLoopback()` -/
def ipIsLoopback (ip : List UInt8) : Bool :=
  match ipTo4 ip with
  | some ip4 => ip4.getD 0 0 == 127
  | none => ipEqual ip ipv6Loopback

/-! ## `Loopback` -/

/-- a `net.Addr` of an interface: an `*net.IPNet` with its IP, or an address of another type -/
inductive NetAddr
  | ipNet (ip : List UInt8)
  | other
  deriving DecidableEq, Repr

/-- `ip, ok := addr.(*net.IPNet)`, then `ok && ip.IP.IsLoopback()` -/
def NetAddr.isLoopback : NetAddr → Bool
  | .ipNet ip => ipIsLoopback ip
  | .other => false

/-- a `net.Interface`: its `Index`, and what its `Addrs()` returns -/
structure NetIface where
  index : Int
  addrs : Except GoError (List NetAddr)

/-- the loop `for _, iface := range interfaces` from the `err` the turns before left: the
index it returns, or the `err` it ends with.  The inner loop `for _, addr := range addrs`
returns at the first address that is a loopback `*net.IPNet`. -/
def loopbackLoop (err : Option GoError) : List NetIface → Except (Option GoError) Int
  | [] => .error err
  | iface :: rest =>
    match iface.addrs with
    | .error e => loopbackLoop (some e) rest
    | .ok addrs => if addrs.any NetAddr.isLoopback then .ok iface.index else loopbackLoop none rest

/-- `Loopback()`, on what `net.Interfaces()` returns: the index and the error; `err` still nil
after the loops becomes `errors.New("not found")`, and the error returned is
`fmt.Errorf("Loopback discovery: %s", err)` -/
def loopback (interfaces : Except GoError (List NetIface)) : Int × Option GoError :=
  let r : Except (Option GoError) Int := match interfaces with
    | .error e => .error (some e)
    | .ok ifs => loopbackLoop none ifs
  match r with
  | .ok i => (i, none)
  | .error err => (0, some ⟨"Loopback discovery: " ++ (err.getD ⟨"not found"⟩).msg⟩)

/-! ## what it does -/

/-- the interface's `Addrs()` succeeds and holds a loopback `*net.IPNet` -/
def NetIface.hasLoopback (i : NetIface) : Bool :=
  match i.addrs with
  | .ok addrs => addrs.any NetAddr.isLoopback
  | .error _ => false

/-- the error of the interface's `Addrs()`, if it failed -/
def NetIface.addrsError (i : NetIface) : Option GoError :=
  match i.addrs with
  | .error e => some e
  | .ok _ => none

/-- `Loopback` said without its loops: the index of the first interface with a loopback
address; when there is none, the error of `net.Interfaces()`, else of the last interface's
`Addrs()`, else `not found` -/
def loopbackSpec : Except GoError (List NetIface) → Int × Option GoError
  | .error e => (0, some ⟨"Loopback discovery: " ++ e.msg⟩)
  | .ok ifs =>
    match ifs.find? NetIface.hasLoopback with
    | some i => (i.index, none)
    | none => (0, some ⟨"Loopback discovery: " ++
        ((ifs.getLast?.bind NetIface.addrsError).getD ⟨"not found"⟩).msg⟩)

theorem getLast?_map_getD_cons {β : Type} (f : NetIface → β) (d : β) (i : NetIface)
    (rest : List NetIface) :
    ((i :: rest).getLast?.map f).getD d = (rest.getLast?.map f).getD (f i) := by
  cases rest with
  | nil => rfl
  | cons j r => rw [List.getLast?_cons_cons, List.getLast?_cons]; rfl

/-- the loop from `err`: the first interface with a loopback address, else the error of the
last `Addrs()`, or `err` when there is no interface -/
theorem loopbackLoop_eq (err : Option GoError) (ifs : List NetIface) :
    loopbackLoop err ifs = match ifs.find? NetIface.hasLoopback with
      | some i => .ok i.index
      | none => .error ((ifs.getLast?.map NetIface.addrsError).getD err) := by
  induction ifs generalizing err with
  | nil => rfl
  | cons i rest ih =>
    rw [getLast?_map_getD_cons]
    cases h : i.addrs with
    | error e =>
      have hl : i.hasLoopback = false := by simp [NetIface.hasLoopback, h]
      have he : i.addrsError = some e := by simp [NetIface.addrsError, h]
      simp only [loopbackLoop, h, ih, List.find?_cons, hl, he]
    | ok addrs =>
      have he : i.addrsError = none := by simp [NetIface.addrsError, h]
      have hl : i.hasLoopback = addrs.any NetAddr.isLoopback := by simp [NetIface.hasLoopback, h]
      cases ha : addrs.any NetAddr.isLoopback <;>
        simp only [loopbackLoop, h, ih, List.find?_cons, hl, he, ha] <;> rfl

/-- **`Loopback` as the code has it is `Loopback` as said.**  On every answer of
`net.Interfaces()` and of each `Addrs()`, `Loopback` returns the index of the first
interface, in the order listed, whose `Addrs()` succeeds and holds an `*net.IPNet` with a
loopback IP, with no error.  When there is none it returns 0 and
`Loopback discovery: ` followed by the error of `net.Interfaces()`, else by the error of the
last interface's `Addrs()`, else by `not found`: the failure of an earlier `Addrs()` is
overwritten. -/
theorem loopback_eq_spec (interfaces : Except GoError (List NetIface)) :
    loopback interfaces = loopbackSpec interfaces := by
  cases interfaces with
  | error e => rfl
  | ok ifs =>
    simp only [loopback, loopbackSpec, loopbackLoop_eq]
    cases ifs.find? NetIface.hasLoopback with
    | some i => rfl
    | none => cases ifs.getLast? <;> rfl

end IppUsb
