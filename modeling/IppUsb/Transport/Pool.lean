import IppUsb.Transport.System

/-!
# Connection conservation and I/O exclusivity

Over every interleaving of round trips (with their `Write` and `ReadResponse` error exits),
body reads and closes, drains, releases and `Shutdown`, starting from a transport that
`NewUsbTransport` returned:

* `Inv`                  each connection is in `connPool` once or held by one goroutine; the
                         `usbConnState` counters count the goroutines they describe; the byte
                         counters of a connection are zero once its holder reached `connPool`;
* `Inv.step`, `reach_inv`  one step keeps `Inv`, so every reachable state has it;
* `Conserved`, `conn_conservation`  no connection is lost or duplicated, `connInUse()` is the number of
                         held connections, and `conn.put` never finds `connPool` full;
* `IoExclusive`, `io_exclusive`  `alloc[i] ∈ {0, 1}`, `read[i] + write[i] ≤ alloc[i]`: at most one
                         goroutine is inside `conn.Read` or `conn.Write` on a connection, never
                         while it is in `connPool`, and a pooled connection has clean counters.
-/

namespace IppUsb

/-- what every reachable state satisfies -/
structure Inv (s : Sys) : Prop where
  own : ∀ c, s.sh.pool.count c + tally (Task.held c) s.tasks = if c < s.sh.cap then 1 else 0
  size : s.sh.pool.length + tally Task.holding s.tasks = s.sh.cap
  alloc : ∀ c, s.sh.alloc c = tally (Task.counted c) s.tasks
  read : ∀ c, s.sh.read c = tally (Task.inIo c .reading) s.tasks
  write : ∀ c, s.sh.write c = tally (Task.inIo c .writing) s.tasks
  wf : ∀ t ∈ s.tasks, t.Wf
  clean : ∀ c, (s.sh.cntRecv c = 0 ∧ s.sh.cntSent c = 0) ∨ tally (Task.dirty c) s.tasks = 1

/-! ## one goroutine -/

theorem Task.dirty_le_held (c : Nat) (t : Task) : t.dirty c ≤ t.held c := by
  cases t with
  | hold c' st io => simp only [Task.dirty, Task.held]; split_ifs <;> simp_all
  | _ => simp [Task.dirty]

theorem Task.counted_le_held (c : Nat) (t : Task) : t.counted c ≤ t.held c := by
  cases t with
  | hold c' st io => simp only [Task.counted, Task.held]; split_ifs <;> simp_all
  | _ => simp [Task.counted]

/-- inside `conn.Read` or `conn.Write` only between `gotConn` and `putConn` -/
theorem Task.inIo_le_counted (c : Nat) {t : Task} (h : t.Wf) :
    t.inIo c .reading + t.inIo c .writing ≤ t.counted c := by
  rcases t with _ | _ | ⟨c', st, io⟩ | _ | _ <;> simp only [Task.inIo, Task.counted] <;> try omega
  cases io <;> cases st <;> simp_all [Task.Wf, Stage.reads, Stage.counted]

theorem tally_mono {f g : Task → Nat} (h : ∀ t, f t ≤ g t) (ts : List Task) :
    tally f ts ≤ tally g ts := by
  induction ts with
  | nil => simp
  | cons t ts ih => simp only [tally_cons]; exact Nat.add_le_add (h t) ih

theorem tally_held_le_one {sh : Shared} {ts : List Task}
    (h : sh.pool.count c + tally (Task.held c) ts = if c < sh.cap then 1 else 0) :
    tally (Task.held c) ts ≤ 1 := by
  split at h <;> omega

/-! ## the shutdown goroutine touches no connection -/

theorem SdStep.frame {sh sh' : Shared} (h : SdStep sh sh') :
    sh'.cap = sh.cap ∧ sh'.pool = sh.pool ∧ sh'.alloc = sh.alloc ∧ sh'.read = sh.read ∧
      sh'.write = sh.write ∧ sh'.cntRecv = sh.cntRecv ∧ sh'.cntSent = sh.cntSent := by
  cases h <;> simp

/-! ## the invariant -/

theorem Inv.init {desc : UsbDeviceDesc} {dev : UsbDevice} {t : UsbTransport} {ops : List UsbOp}
    (h : newUsbTransport desc dev = (.ok t, ops)) : Inv (Sys.init t) where
  own c := by simp [Sys.init, newUsbTransport_pool h, List.count_eq_of_nodup (List.nodup_range _)]
  size := by simp [Sys.init, ← List.length_map t.connPool UsbConn.index, newUsbTransport_pool h]
  alloc _ := rfl
  read _ := rfl
  write _ := rfl
  wf := by simp [Sys.init]
  clean _ := .inl ⟨rfl, rfl⟩

theorem Inv.task {sh sh' : Shared} {pre post : List Task} {t t' : Task} {fs : List Task}
    (hi : Inv ⟨sh, pre ++ t :: post⟩) (h : TStep sh t sh' t' fs) :
    Inv ⟨sh', pre ++ t' :: post ++ fs⟩ := by
  have hcap := h.cap_eq
  have hwf : t.Wf := hi.wf t (by simp)
  have own' : ∀ c, sh'.pool.count c + tally (Task.held c) (pre ++ t' :: post ++ fs) =
      if c < sh'.cap then 1 else 0 := fun c => by
    have := hi.own c; have := h.own c; simp only [tally_append, tally_cons, hcap] at *; omega
  refine ⟨own', ?_, fun c => ?_, fun c => ?_, fun c => ?_, ?_, fun c => ?_⟩
  · have := hi.size; have := h.size; simp only [tally_append, tally_cons, hcap] at *; omega
  · have := hi.alloc c; have := h.alloc c; simp only [tally_append, tally_cons] at *; push_cast at *
    omega
  · have := hi.read c; have := (h.io c).1; simp only [tally_append, tally_cons] at *; push_cast at *
    omega
  · have := hi.write c; have := (h.io c).2; simp only [tally_append, tally_cons] at *; push_cast at *
    omega
  · have := (h.wf hwf)
    intro x hx
    simp only [List.mem_append, List.mem_cons] at hx
    rcases hx with (hx | rfl | hx) | hx
    · exact hi.wf x (by simp [hx])
    · exact this.1
    · exact hi.wf x (by simp [hx])
    · exact this.2 x hx
  · have hle := (tally_mono (Task.dirty_le_held c) _).trans (tally_held_le_one (own' c))
    have hold := hi.clean c
    simp only [tally_append, tally_cons] at hle hold ⊢
    rcases h.cnt hwf c with ⟨hr, hs, hd⟩ | hz | ⟨-, hd⟩
    · rw [hr, hs]; omega
    · exact .inl hz
    · omega

theorem Inv.step {s s' : Sys} (hi : Inv s) (h : Step s s') : Inv s' := by
  cases h with
  | task ht => exact hi.task ht
  | call =>
    refine ⟨fun c => ?_, ?_, fun c => ?_, fun c => ?_, fun c => ?_, ?_, fun c => ?_⟩ <;>
      simp only [tally_append, tally_cons, tally_nil]
    · simpa [Task.held] using hi.own c
    · simpa [Task.holding] using hi.size
    · simpa [Task.counted] using hi.alloc c
    · simpa [Task.inIo] using hi.read c
    · simpa [Task.inIo] using hi.write c
    · intro t ht
      rcases List.mem_append.mp ht with ht | ht
      · exact hi.wf t ht
      · simp only [List.mem_singleton] at ht; subst ht; trivial
    · simpa [Task.dirty] using hi.clean c
  | shutdown hs =>
    obtain ⟨h1, h2, h3, h4, h5, h6, h7⟩ := hs.frame
    exact ⟨fun c => by rw [h1, h2]; exact hi.own c, by rw [h1, h2]; exact hi.size,
      fun c => by rw [h3]; exact hi.alloc c, fun c => by rw [h4]; exact hi.read c,
      fun c => by rw [h5]; exact hi.write c, hi.wf, fun c => by rw [h6, h7]; exact hi.clean c⟩

theorem reach_inv {s : Sys} (h : Reach s) : Inv s := by
  induction h with
  | init h => exact Inv.init h
  | step _ hs ih => exact ih.step hs

/-! ## the two laws -/

/-- a device with one interface that answers every call -/
def oneIfDevice : UsbDevice := ⟨.ok (), .ok (), fun _ _ => .ok⟩

/-- the transport `NewUsbTransport` makes for it -/
def oneIfTransport : UsbTransport := ⟨[⟨0, ⟨1, 0, 0⟩⟩], [⟨0, ⟨1, 0, 0⟩⟩], 1⟩

theorem reach_oneIf : Reach (Sys.init oneIfTransport) :=
  @Reach.init ⟨[⟨1, 0, 0⟩]⟩ oneIfDevice oneIfTransport [.openDev, .openIf 0] rfl

/-- the one-interface transport while a round trip that took the connection is inside
`conn.Write` -/
def oneIfWriting : Sys :=
  ⟨{ (Sys.init oneIfTransport).sh with
      pool := []
      alloc := bump (fun _ => 0) 0 1
      write := bump (fun _ => 0) 0 1 }, [.hold 0 .write .writing]⟩

theorem reach_oneIfWriting : Reach oneIfWriting :=
  ((((reach_oneIf.step Step.call).step (@Step.task _ _ [] [] _ _ [] (TStep.shaped _ false))).step
    (@Step.task _ _ [] [] _ _ [] (TStep.select _ false (.conn 0) (by decide)))).step
    (@Step.task _ _ [] [] _ _ [] (TStep.gotConn _ 0))).step
    (@Step.task _ _ [] [] _ _ [] (TStep.beginWrite _ 0))

/-- connection conservation: each connection of `connList` is either in `connPool` exactly
once or held by exactly one goroutine, never both, and there is no other; `len(connPool)`
plus the number of holders is `k`; `connInUse()` is the number of holders; and a `conn.put` at
its send finds room in `connPool` -/
def Conserved (s : Sys) : Prop :=
  (∀ c < s.sh.cap, (s.sh.pool.count c = 1 ∧ tally (Task.held c) s.tasks = 0) ∨
    (s.sh.pool.count c = 0 ∧ tally (Task.held c) s.tasks = 1)) ∧
  (∀ c, s.sh.cap ≤ c → s.sh.pool.count c = 0 ∧ tally (Task.held c) s.tasks = 0) ∧
  s.sh.pool.length + tally Task.holding s.tasks = s.sh.cap ∧
  connInUse s.sh = tally Task.holding s.tasks ∧
  ∀ c, Task.hold c .putSend .idle ∈ s.tasks → s.sh.pool.length < s.sh.cap

/-- **Connection conservation** holds in every reachable state. -/
theorem conn_conservation {s : Sys} (h : Reach s) : Conserved s := by
  have hi := reach_inv h
  refine ⟨fun c hc => ?_, fun c hc => ?_, hi.size, ?_, fun c hc => ?_⟩
  · have := hi.own c; rw [if_pos hc] at this; omega
  · have := hi.own c; rw [if_neg (by omega)] at this; omega
  · have := hi.size; simp only [connInUse]; omega
  · obtain ⟨pre, post, he⟩ := List.append_of_mem hc
    have := hi.size
    simp only [he, tally_append, tally_cons, Task.holding] at this
    omega

theorem conn_conservation_oneIf : Reach oneIfWriting ∧ Conserved oneIfWriting :=
  ⟨reach_oneIfWriting, conn_conservation reach_oneIfWriting⟩

/-- I/O exclusivity: for every connection `i`, `alloc[i] ∈ {0, 1}` and
`read[i] + write[i] ≤ alloc[i]`; at most one goroutine is inside `conn.Read` or `conn.Write` on
`i`, and none while `i` is in `connPool`; a connection in `connPool` has
`cntRecv = cntSent = 0` -/
def IoExclusive (s : Sys) : Prop :=
  ∀ i, (s.sh.alloc i = 0 ∨ s.sh.alloc i = 1) ∧ s.sh.read i + s.sh.write i ≤ s.sh.alloc i ∧
    tally (Task.inIo i .reading) s.tasks + tally (Task.inIo i .writing) s.tasks ≤ 1 ∧
    (0 < tally (Task.inIo i .reading) s.tasks + tally (Task.inIo i .writing) s.tasks →
      i ∉ s.sh.pool) ∧
    (i ∈ s.sh.pool → s.sh.cntRecv i = 0 ∧ s.sh.cntSent i = 0)

theorem tally_inIo_le_counted (i : Nat) {ts : List Task} (hw : ∀ t ∈ ts, t.Wf) :
    tally (Task.inIo i .reading) ts + tally (Task.inIo i .writing) ts ≤
      tally (Task.counted i) ts := by
  induction ts with
  | nil => simp
  | cons t ts ih =>
    have := Task.inIo_le_counted i (hw t (by simp))
    have := ih (fun t ht => hw t (by simp [ht]))
    simp only [tally_cons]; omega

/-- **I/O exclusivity** holds in every reachable state. -/
theorem io_exclusive {s : Sys} (h : Reach s) : IoExclusive s := by
  intro i
  have hi := reach_inv h
  have hheld := tally_held_le_one (hi.own i)
  have hcount := (tally_mono (Task.counted_le_held i) s.tasks).trans hheld
  have hio := tally_inIo_le_counted i hi.wf
  have hpool : i ∈ s.sh.pool → tally (Task.held i) s.tasks = 0 := fun hm => by
    have := hi.own i; have := List.count_pos_iff.mpr hm; split at * <;> omega
  refine ⟨?_, ?_, by omega, fun hp hm => ?_, fun hm => ?_⟩
  · rw [hi.alloc]; omega
  · rw [hi.alloc, hi.read, hi.write]; exact_mod_cast hio
  · have := (tally_mono (Task.counted_le_held i) s.tasks).trans_eq (hpool hm); omega
  · rcases hi.clean i with h0 | h1
    · exact h0
    · have := (tally_mono (Task.dirty_le_held i) s.tasks).trans_eq (hpool hm); omega

theorem io_exclusive_oneIf : Reach oneIfWriting ∧ IoExclusive oneIfWriting :=
  ⟨reach_oneIfWriting, io_exclusive reach_oneIfWriting⟩

end IppUsb
