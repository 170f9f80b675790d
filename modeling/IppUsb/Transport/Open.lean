import Mathlib.Data.List.Count
import Mathlib.Data.List.Nodup
import IppUsb.Transport.Read

/-!
# `NewUsbTransport`: construction is all-or-nothing

`NewUsbTransport` opens the device, reads its info, and opens one `usbConn` per interface
address of the descriptor, putting each into `connPool` and `connList`.  On the first
failure it jumps to `ERROR`: every connection of `connList` is destroyed, the device is
closed, and the error is returned; `openUsbConn` has its own `ERROR` label, which closes an
interface that came back together with an error.

The USB side is a log of `UsbOp`s; the device's answers are a `UsbDevice`, any of whose calls
may fail.

* `openUsbConn`, `openLoop`, `newUsbTransport`   the code, with its two `goto ERROR` paths;
* `openLoop_spec`          the loop stops at the first failing interface, having opened the
                           ones before it (and possibly the failing one);
* `newUsbTransport_spec`   success: `connList` and `connPool` hold one connection per interface
                           address, indices `0 … k-1`, all open; failure: every interface that
                           was opened is closed exactly once, and so is the device; and
                           construction succeeds exactly when every call to the device does.
-/

namespace IppUsb

/-- `UsbIfAddr`: an interface address of the device -/
structure UsbIfAddr where
  config : Nat
  ifNum : Nat
  alt : Nat
  deriving DecidableEq, Repr

/-- `UsbDeviceDesc`, with the field construction reads -/
structure UsbDeviceDesc where
  ifAddrs : List UsbIfAddr
  deriving Repr

/-- the answer of `dev.OpenUsbInterface`: the interface, or an error, possibly together with a
non-nil interface (`iface`) that `openUsbConn` then closes -/
inductive IfOpen
  | ok
  | fail (iface : Bool) (e : GoError)
  deriving DecidableEq, Repr

/-- how the device answers: `UsbOpenDevice`, `dev.UsbDeviceInfo`, and the `i`-th call of
`dev.OpenUsbInterface` -/
structure UsbDevice where
  openDevice : Except GoError Unit
  deviceInfo : Except GoError Unit
  openIface : Nat → UsbIfAddr → IfOpen

/-- the operations on the USB stack: opening and closing the device and the interface that the
`i`-th `OpenUsbInterface` call returned -/
inductive UsbOp
  | openDev
  | closeDev
  | openIf (i : Nat)
  | closeIf (i : Nat)
  deriving DecidableEq, Repr

/-- a `usbConn` as construction builds it: its index and interface address -/
structure UsbConn where
  index : Nat
  addr : UsbIfAddr
  deriving DecidableEq, Repr

/-- the transport `NewUsbTransport` returns: `connList`, the contents of `connPool`, and the
capacity of `connPool` (`len(desc.IfAddrs)`) -/
structure UsbTransport where
  connList : List UsbConn
  connPool : List UsbConn
  cap : Nat
  deriving Repr

/-- `transport.openUsbConn(index, ifaddr)` -/
def openUsbConn (dev : UsbDevice) (index : Nat) (ifaddr : UsbIfAddr) :
    Except GoError UsbConn × List UsbOp :=
  match dev.openIface index ifaddr with
  | .ok => (.ok ⟨index, ifaddr⟩, [.openIf index])
  | .fail iface e => (.error e, if iface then [.openIf index, .closeIf index] else [])

/-- the `for i, ifaddr := range desc.IfAddrs` loop from index `i` on, with `connList = list`:
`ok` with the final `connList`, or the error that jumps to `ERROR` with the `connList` it
leaves -/
def openLoop (dev : UsbDevice) :
    Nat → List UsbIfAddr → List UsbConn → List UsbOp → Except GoError Unit × List UsbConn × List UsbOp
  | _, [], list, ops => (.ok (), list, ops)
  | i, a :: as, list, ops =>
    match openUsbConn dev i a with
    | (.ok conn, ops') => openLoop dev (i + 1) as (list ++ [conn]) (ops ++ ops')
    | (.error e, ops') => (.error e, list, ops ++ ops')

/-- `conn.destroy()` -/
def UsbConn.destroy (conn : UsbConn) : UsbOp := .closeIf conn.index

/-- `NewUsbTransport(desc)`: the transport or the error, and the USB operations it made -/
def newUsbTransport (desc : UsbDeviceDesc) (dev : UsbDevice) :
    Except GoError UsbTransport × List UsbOp :=
  match dev.openDevice with
  | .error e => (.error e, [])
  | .ok () =>
    match dev.deviceInfo with
    | .error e => (.error e, [.openDev, .closeDev])
    | .ok () =>
      match openLoop dev 0 desc.ifAddrs [] [.openDev] with
      | (.ok (), list, ops) => (.ok ⟨list, list, desc.ifAddrs.length⟩, ops)
      | (.error e, list, ops) => (.error e, ops ++ list.map UsbConn.destroy ++ [.closeDev])

/-! ## the loop -/

/-- the connections the loop makes from index `i` on, one per address -/
def connsFrom : Nat → List UsbIfAddr → List UsbConn
  | _, [] => []
  | i, a :: as => ⟨i, a⟩ :: connsFrom (i + 1) as

theorem connsFrom_index (i : Nat) (as : List UsbIfAddr) :
    (connsFrom i as).map UsbConn.index = List.range' i as.length := by
  induction as generalizing i with
  | nil => rfl
  | cons a as ih => simp [connsFrom, ih, List.range'_succ]

theorem connsFrom_addr (i : Nat) (as : List UsbIfAddr) :
    (connsFrom i as).map UsbConn.addr = as := by
  induction as generalizing i with
  | nil => rfl
  | cons a as ih => simp [connsFrom, ih]

/-- what the failing `openUsbConn` left in the log: nothing, or the interface it opened and
closed again -/
def Leak (i : Nat) (extra : List UsbOp) : Prop := extra = [] ∨ extra = [.openIf i, .closeIf i]

/-- **The loop.**  Either every address is opened, in order, or the loop stops at the `n`-th
one, having opened the `n` before it; the failing call may add an open and a close of its own
interface. -/
theorem openLoop_spec (dev : UsbDevice) (i : Nat) (as : List UsbIfAddr) (list : List UsbConn)
    (ops : List UsbOp) :
    (∃ e n extra, n < as.length ∧ Leak (i + n) extra ∧
      openLoop dev i as list ops = (.error e, list ++ connsFrom i (as.take n),
        ops ++ (connsFrom i (as.take n)).map (fun c => UsbOp.openIf c.index) ++ extra)) ∨
    openLoop dev i as list ops =
      (.ok (), list ++ connsFrom i as, ops ++ (connsFrom i as).map (fun c => UsbOp.openIf c.index)) := by
  induction as generalizing i list ops with
  | nil => exact .inr (by simp [openLoop, connsFrom])
  | cons a as ih =>
    cases h : dev.openIface i a with
    | ok =>
      have e : openLoop dev i (a :: as) list ops =
          openLoop dev (i + 1) as (list ++ [⟨i, a⟩]) (ops ++ [.openIf i]) := by
        simp [openLoop, openUsbConn, h]
      rw [e]
      rcases ih (i + 1) (list ++ [⟨i, a⟩]) (ops ++ [.openIf i]) with ⟨e', n, extra, hn, hl, h'⟩ | h'
      · refine .inl ⟨e', n + 1, extra, by simpa using hn,
          by rwa [show i + (n + 1) = i + 1 + n by omega], ?_⟩
        rw [h']
        simp [connsFrom]
      · exact .inr (by rw [h']; simp [connsFrom])
    | fail iface e =>
      refine .inl ⟨e, 0, if iface then [.openIf i, .closeIf i] else [], by simp, ?_, ?_⟩
      · cases iface <;> simp [Leak]
      · simp [openLoop, openUsbConn, h, connsFrom]

/-- the loop gets through every address exactly when each `OpenUsbInterface` succeeds -/
theorem openLoop_ok_iff (dev : UsbDevice) (i : Nat) (as : List UsbIfAddr) (list : List UsbConn)
    (ops : List UsbOp) :
    (openLoop dev i as list ops).1 = .ok () ↔
      ∀ j (hj : j < as.length), dev.openIface (i + j) as[j] = .ok := by
  induction as generalizing i list ops with
  | nil => simp [openLoop]
  | cons a as ih =>
    cases h : dev.openIface i a with
    | ok =>
      simp only [openLoop, openUsbConn, h, ih]
      constructor
      · intro hall j hj
        cases j with
        | zero => exact h
        | succ j => simpa [Nat.add_right_comm, Nat.add_assoc] using hall j (by simpa using hj)
      · intro hall j hj
        simpa [Nat.add_right_comm, Nat.add_assoc] using hall (j + 1) (by simpa using hj)
    | fail iface e =>
      simp only [openLoop, openUsbConn, h]
      exact ⟨nofun, fun hall => by simpa [h] using hall 0 (by simp)⟩

/-! ## counting the operations -/

/-- an operation made once for each connection of the loop, by a constructor of its index, is
counted once for each index the loop covers -/
theorem count_conns (f : Nat → UsbOp) (hf : Function.Injective f) (g : UsbConn → UsbOp)
    (hg : ∀ c, g c = f c.index) (i x : Nat) (as : List UsbIfAddr) :
    ((connsFrom i as).map g).count (f x) = if i ≤ x ∧ x < i + as.length then 1 else 0 := by
  have e : (connsFrom i as).map g = ((connsFrom i as).map UsbConn.index).map f := by
    simp [Function.comp_def, hg]
  rw [e, connsFrom_index, List.count_map_of_injective _ _ hf,
    List.count_eq_of_nodup (List.nodup_range' _ _)]
  simp [List.mem_range'_1]

theorem count_openIf_destroy (x : Nat) (l : List UsbConn) :
    (l.map UsbConn.destroy).count (.openIf x) = 0 := by
  simp [UsbConn.destroy, List.count_eq_zero]

theorem count_closeIf_openIf (x : Nat) (l : List UsbConn) :
    (l.map (fun c => UsbOp.openIf c.index)).count (.closeIf x) = 0 := by
  simp [List.count_eq_zero]

theorem count_leak (i x : Nat) {extra : List UsbOp} (h : Leak i extra) :
    extra.count (.openIf x) = extra.count (.closeIf x) ∧ extra.count (.openIf x) ≤ 1 ∧
      (x ≠ i → extra.count (.openIf x) = 0) ∧ extra.count .openDev = 0 ∧
      extra.count .closeDev = 0 := by
  rcases h with rfl | rfl
  · simp
  · by_cases hx : x = i
    · subst hx; simp
    · simp [List.count_cons, Ne.symm hx, hx]

/-! ## `NewUsbTransport` -/

/-- the success path: one connection per address, each opened once -/
theorem newUsbTransport_ok {desc : UsbDeviceDesc} {dev : UsbDevice} {t : UsbTransport}
    {ops : List UsbOp} (h : newUsbTransport desc dev = (.ok t, ops)) :
    t = ⟨connsFrom 0 desc.ifAddrs, connsFrom 0 desc.ifAddrs, desc.ifAddrs.length⟩ ∧
      ops = .openDev :: (connsFrom 0 desc.ifAddrs).map (fun c => UsbOp.openIf c.index) := by
  unfold newUsbTransport at h
  cases hd : dev.openDevice <;> simp only [hd] at h
  · cases h
  cases hi : dev.deviceInfo <;> simp only [hi] at h
  · cases h
  rcases openLoop_spec dev 0 desc.ifAddrs [] [.openDev] with ⟨e, n, extra, -, -, h'⟩ | h' <;>
    rw [h'] at h
  · cases h
  · simp only [Prod.mk.injEq, Except.ok.injEq] at h
    exact ⟨h.1.symm, by simpa using h.2.symm⟩

/-- the pool of a new transport: the indices `0 … k-1`, in order -/
theorem newUsbTransport_pool {desc : UsbDeviceDesc} {dev : UsbDevice} {t : UsbTransport}
    {ops : List UsbOp} (h : newUsbTransport desc dev = (.ok t, ops)) :
    t.connPool.map UsbConn.index = List.range t.cap := by
  obtain ⟨rfl, -⟩ := newUsbTransport_ok h
  simp [connsFrom_index, List.range_eq_range']

/-- construction succeeds exactly when every call to the device does -/
theorem newUsbTransport_ok_iff (desc : UsbDeviceDesc) (dev : UsbDevice) :
    (∃ t ops, newUsbTransport desc dev = (.ok t, ops)) ↔
      dev.openDevice = .ok () ∧ dev.deviceInfo = .ok () ∧
        ∀ i (hi : i < desc.ifAddrs.length), dev.openIface i desc.ifAddrs[i] = .ok := by
  have hl := openLoop_ok_iff dev 0 desc.ifAddrs [] [.openDev]
  simp only [Nat.zero_add] at hl
  unfold newUsbTransport
  cases dev.openDevice <;> cases dev.deviceInfo <;> simp
  rw [← hl]
  obtain ⟨r, list, ops⟩ := openLoop dev 0 desc.ifAddrs [] [.openDev]
  cases r <;> simp

/-- **Construction is all-or-nothing.**  On success `connList` and `connPool` are the same list
of `len(desc.IfAddrs)` connections, one per interface address, with indices `0 … k-1`; the
device and exactly those interfaces are open, each once.  On failure every interface that was
opened is closed exactly once, no other is closed, and the device is closed exactly when it
was opened.  Construction succeeds exactly when `UsbOpenDevice`, `UsbDeviceInfo` and every
`OpenUsbInterface` succeed. -/
theorem newUsbTransport_spec (desc : UsbDeviceDesc) (dev : UsbDevice) :
    (∀ t ops, newUsbTransport desc dev = (.ok t, ops) →
      t.connList = t.connPool ∧ t.cap = desc.ifAddrs.length ∧
      t.connList.map UsbConn.index = List.range desc.ifAddrs.length ∧
      t.connList.map UsbConn.addr = desc.ifAddrs ∧
      ops.count .openDev = 1 ∧ ops.count .closeDev = 0 ∧
      ∀ x, ops.count (.closeIf x) = 0 ∧
        ops.count (.openIf x) = if x < desc.ifAddrs.length then 1 else 0) ∧
    (∀ e ops, newUsbTransport desc dev = (.error e, ops) →
      ops.count .closeDev = ops.count .openDev ∧ ops.count .openDev ≤ 1 ∧
      (dev.openDevice = .ok () → ops.count .closeDev = 1) ∧
      ∀ x, ops.count (.closeIf x) = ops.count (.openIf x) ∧ ops.count (.openIf x) ≤ 1) ∧
    ((∃ t ops, newUsbTransport desc dev = (.ok t, ops)) ↔
      dev.openDevice = .ok () ∧ dev.deviceInfo = .ok () ∧
        ∀ i (hi : i < desc.ifAddrs.length), dev.openIface i desc.ifAddrs[i] = .ok) := by
  refine ⟨fun t ops ht => ?_, fun e ops he => ?_, newUsbTransport_ok_iff desc dev⟩
  · obtain ⟨rfl, rfl⟩ := newUsbTransport_ok ht
    refine ⟨rfl, rfl, by simp [connsFrom_index, List.range_eq_range'], connsFrom_addr 0 _,
      by simp [List.count_cons, List.count_eq_zero], by simp [List.count_cons, List.count_eq_zero],
      fun x => ⟨by simp [List.count_cons, count_closeIf_openIf], ?_⟩⟩
    simp [List.count_cons, count_conns UsbOp.openIf (fun _ _ => UsbOp.openIf.inj)
      (fun c => .openIf c.index) fun _ => rfl]
  unfold newUsbTransport at he
  cases hd : dev.openDevice <;> simp only [hd] at he
  · cases he; simp
  cases hi : dev.deviceInfo <;> simp only [hi] at he
  · cases he; simp
  rcases openLoop_spec dev 0 desc.ifAddrs [] [.openDev] with ⟨e', n, extra, hn, hl, h⟩ | h <;>
    rw [h] at he
  · simp only [Prod.mk.injEq, Except.error.injEq] at he
    obtain ⟨-, rfl⟩ := he
    rw [Nat.zero_add] at hl
    have hlen : (desc.ifAddrs.take n).length = n := by simp; omega
    obtain ⟨-, -, -, hod, hcd⟩ := count_leak n 0 hl
    have hdev : ∀ l : List UsbConn, (l.map UsbConn.destroy).count .openDev = 0 ∧
        (l.map UsbConn.destroy).count .closeDev = 0 ∧
        (l.map (fun c => UsbOp.openIf c.index)).count .openDev = 0 ∧
        (l.map (fun c => UsbOp.openIf c.index)).count .closeDev = 0 := fun l => by
      simp [List.count_eq_zero, UsbConn.destroy]
    simp only [List.nil_append, List.count_append, hod, hcd, (hdev _).1, (hdev _).2.1,
      (hdev _).2.2.1, (hdev _).2.2.2,
      count_conns UsbOp.openIf (fun _ _ => UsbOp.openIf.inj) (fun c => .openIf c.index) fun _ => rfl,
      count_conns UsbOp.closeIf (fun _ _ => UsbOp.closeIf.inj) UsbConn.destroy fun _ => rfl,
      count_openIf_destroy, count_closeIf_openIf, hlen]
    refine ⟨by simp, by simp, fun _ => by simp, fun x => ?_⟩
    obtain ⟨h1, h2, h3, -⟩ := count_leak n x hl
    simp only [List.count_singleton', List.count_cons, List.count_nil]
    refine ⟨by simp; omega, ?_⟩
    by_cases hx : x = n
    · subst hx; simp; omega
    · rw [h3 hx]; simp; split <;> omega
  · cases he

end IppUsb
