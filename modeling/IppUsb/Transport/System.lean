import IppUsb.Transport.Open

/-!
# The transport as a system of goroutines

A `UsbTransport` is shared by any number of goroutines: round trips, the callers that hold
their response bodies, the drain goroutines that `usbResponseBodyWrapper.Close` starts, and one
`Shutdown`.  The shared part is `connPool` (a buffered channel of capacity `len(connList)`),
the `shutdown` channel, the `usbConnState` counters, the byte counters of each `usbConn`, and
where `Shutdown` stands; each other goroutine is a `Task`.  A `Step` moves one goroutine by one
atomic action, the step of one task rewriting it in place and appending the goroutine it
starts.

* `usbConnGet`         the ready cases of the `select` in `usbConnGet`; Go picks any of them;
* `TStep`              one action of a goroutine running `RoundTripWithSession`, a body
                       method, a drain, or `conn.put`;
* `SdStep`             one action of `Shutdown(ctx)`, or the cancellation of its `ctx`;
* `Step`, `Reach`      the interleavings, from a transport that `NewUsbTransport` returned;
* `TStep.balance`      what one action of a goroutine changes: connections pass between
                       `connPool` and goroutines, and each `usbConnState` counter moves with
                       the goroutines it counts.
-/

namespace IppUsb

/-- where a goroutine that holds connection `c` stands -/
inductive Stage
  /-- received from `connPool` in `usbConnGet`, before `gotConn` -/
  | got
  /-- `outreq.Write(conn)` -/
  | write
  /-- `http.ReadResponse(conn.reader, outreq)` -/
  | readRsp
  /-- the caller holds the unclosed `usbResponseBodyWrapper`; `drained`: EOF or error seen -/
  | body (drained : Bool)
  /-- the caller is inside `wrap.Read` -/
  | bodyRead (drained : Bool)
  /-- `wrap.Close` of a drained body, in `wrap.body.Close()` -/
  | closing
  /-- the goroutine `wrap.Close` starts: `io.Copy(ioutil.Discard, wrap.body)`, `wrap.body.Close()` -/
  | drain
  /-- `conn.put()`, before `putConn` -/
  | put
  /-- `conn.put()`, at `transport.connPool <- conn` -/
  | putSend
  deriving DecidableEq, Repr

/-- between `gotConn` and `putConn`: the stages `connstate.alloc` counts -/
def Stage.counted : Stage → Bool
  | .got | .putSend => false
  | _ => true

/-- the stages that read the connection through `conn.reader` -/
def Stage.reads : Stage → Bool
  | .readRsp | .bodyRead _ | .closing | .drain => true
  | _ => false

/-- inside `conn.Read`, inside `conn.Write`, or neither -/
inductive Io
  | idle
  | reading
  | writing
  deriving DecidableEq, Repr

/-- a goroutine using the transport -/
inductive Task
  /-- `RoundTripWithSession` before `usbConnGet`: shaping the request, prefetching the body -/
  | start
  /-- in the `select` of `usbConnGet`; `ctxDone`: `rq.Context()` is done -/
  | get (ctxDone : Bool)
  /-- holding connection `c` -/
  | hold (c : Nat) (st : Stage) (io : Io)
  /-- `conn.put()`, at the non-blocking send on `connReleased` -/
  | signal
  | done
  deriving DecidableEq, Repr

/-- where the goroutine of `Shutdown(ctx)` stands -/
inductive Sd
  /-- `Shutdown` not called -/
  | idle
  /-- at `n := transport.connInUse()` -/
  | loop
  /-- `n > 0` was read; logging it, before the `select` -/
  | log (n : Nat)
  /-- blocked in the `select` on `connReleased` and `ctx.Done()` -/
  | select
  /-- returned nil -/
  | ok
  /-- returned `ctx.Err()` -/
  | err
  deriving DecidableEq, Repr

/-- the shared state of a transport -/
structure Shared where
  /-- `cap(connPool)`, the number of connections -/
  cap : Nat
  /-- the indices of the connections in `connPool`, oldest first -/
  pool : List Nat
  /-- `transport.shutdown` is closed -/
  shutdown : Bool
  sd : Sd
  /-- the `ctx` of `Shutdown` is done -/
  sdCtxDone : Bool
  /-- `connstate.alloc`, `connstate.read`, `connstate.write` -/
  alloc : Nat → Int
  read : Nat → Int
  write : Nat → Int
  /-- `conn.cntRecv`, `conn.cntSent` -/
  cntRecv : Nat → Nat
  cntSent : Nat → Nat

/-- `transport.connInUse()`: `cap(connPool) - len(connPool)` -/
def connInUse (sh : Shared) : Nat := sh.cap - sh.pool.length

/-- `atomic.AddInt32(&f[c], d)` -/
def bump (f : Nat → Int) (c : Nat) (d : Int) : Nat → Int := Function.update f c (f c + d)

/-- `conn.cntX += n` -/
def addAt (f : Nat → Nat) (c n : Nat) : Nat → Nat := Function.update f c (f c + n)

@[simp] theorem bump_apply (f : Nat → Int) (c d c') :
    bump f c d c' = if c' = c then f c + d else f c' := by
  simp [bump, Function.update_apply]

@[simp] theorem addAt_apply (f : Nat → Nat) (c n c') :
    addAt f c n c' = if c' = c then f c + n else f c' := by
  simp [addAt, Function.update_apply]

/-! ## `usbConnGet` -/

/-- what `usbConnGet` returns -/
inductive GetResult
  /-- `nil, ErrShutdown` -/
  | errShutdown
  /-- `nil, ctx.Err()` -/
  | errCtx
  /-- the connection received from `connPool` -/
  | conn (c : Nat)
  deriving DecidableEq, Repr

/-- the ready cases of the `select` in `usbConnGet`: `<-transport.shutdown` once it is
closed, `<-ctx.Done()` once `ctx` is done, `<-transport.connPool` while it holds a connection.
Go chooses among the ready cases at random; with none ready the `select` blocks. -/
def usbConnGet (shutdown ctxDone : Bool) (pool : List Nat) : List GetResult :=
  (if shutdown then [.errShutdown] else []) ++ (if ctxDone then [.errCtx] else []) ++
    (match pool with
     | c :: _ => [.conn c]
     | [] => [])

/-- the goroutine after `usbConnGet` returned `r` -/
def GetResult.task : GetResult → Task
  | .conn c => .hold c .got .idle
  | _ => .done

/-- the shared state after the `select` took case `r` -/
def Shared.afterGet (sh : Shared) : GetResult → Shared
  | .conn _ => { sh with pool := sh.pool.tail }
  | _ => sh

/-- the non-blocking send on the unbuffered `connReleased`: it reaches `Shutdown` only while
`Shutdown` is blocked in its `select`; otherwise the `default` case drops it -/
def Shared.release (sh : Shared) : Shared :=
  if sh.sd = .select then { sh with sd := .loop } else sh

/-- `putConn` and the resets of `conn.put()`: `conn.reader.Reset(conn)`, `conn.cntRecv = 0`,
`conn.cntSent = 0`, `atomic.AddInt32(&state.alloc[conn.index], -1)` -/
def Shared.putConn (sh : Shared) (c : Nat) : Shared :=
  { sh with cntRecv := Function.update sh.cntRecv c 0, cntSent := Function.update sh.cntSent c 0,
            alloc := bump sh.alloc c (-1) }

/-! ## the goroutines -/

/-- one atomic action of a goroutine: `TStep sh t sh' t' fs` moves `t` to `t'`, the shared
state from `sh` to `sh'`, and starts the goroutines `fs` -/
inductive TStep : Shared → Task → Shared → Task → List Task → Prop
  /-- the prefetch of a small body failed: `RoundTripWithSession` returns its error -/
  | prefetchErr (sh : Shared) : TStep sh .start sh .done []
  /-- `usbConnGet(rq.Context())` is called, its `ctx` done or not -/
  | shaped (sh : Shared) (d : Bool) : TStep sh .start sh (.get d) []
  /-- the caller cancels `rq.Context()` -/
  | cancel (sh : Shared) : TStep sh (.get false) sh (.get true) []
  /-- the `select` of `usbConnGet` takes the ready case `r` -/
  | select (sh : Shared) (d : Bool) (r : GetResult) :
      r ∈ usbConnGet sh.shutdown d sh.pool → TStep sh (.get d) (sh.afterGet r) r.task []
  /-- `transport.connstate.gotConn(conn)` -/
  | gotConn (sh : Shared) (c : Nat) :
      TStep sh (.hold c .got .idle) { sh with alloc := bump sh.alloc c 1 } (.hold c .write .idle) []
  /-- `conn.Write` starts: `beginWrite` -/
  | beginWrite (sh : Shared) (c : Nat) :
      TStep sh (.hold c .write .idle) { sh with write := bump sh.write c 1 }
        (.hold c .write .writing) []
  /-- `conn.Write` sends `n` bytes, counts them, and returns: `doneWrite` -/
  | doneWrite (sh : Shared) (c n : Nat) :
      TStep sh (.hold c .write .writing)
        { sh with cntSent := addAt sh.cntSent c n, write := bump sh.write c (-1) }
        (.hold c .write .idle) []
  /-- `outreq.Write(conn)` fails: `conn.put()` -/
  | writeErr (sh : Shared) (c : Nat) : TStep sh (.hold c .write .idle) sh (.hold c .put .idle) []
  /-- `outreq.Write(conn)` succeeds -/
  | writeOk (sh : Shared) (c : Nat) :
      TStep sh (.hold c .write .idle) sh (.hold c .readRsp .idle) []
  /-- `conn.Read` starts, called through `conn.reader`: `beginRead` -/
  | beginRead (sh : Shared) (c : Nat) (st : Stage) :
      st.reads → TStep sh (.hold c st .idle) { sh with read := bump sh.read c 1 }
        (.hold c st .reading) []
  /-- `conn.Read` receives `n` bytes after its zero reads, counts them, and returns: `doneRead` -/
  | doneRead (sh : Shared) (c : Nat) (st : Stage) (n : Nat) :
      TStep sh (.hold c st .reading)
        { sh with cntRecv := addAt sh.cntRecv c n, read := bump sh.read c (-1) }
        (.hold c st .idle) []
  /-- `http.ReadResponse` fails: `conn.put()` -/
  | readErr (sh : Shared) (c : Nat) : TStep sh (.hold c .readRsp .idle) sh (.hold c .put .idle) []
  /-- `http.ReadResponse` succeeds: the body is wrapped and the round trip returns -/
  | readOk (sh : Shared) (c : Nat) :
      TStep sh (.hold c .readRsp .idle) sh (.hold c (.body false) .idle) []
  /-- the caller calls `wrap.Read` -/
  | bodyRead (sh : Shared) (c : Nat) (d : Bool) :
      TStep sh (.hold c (.body d) .idle) sh (.hold c (.bodyRead d) .idle) []
  /-- `wrap.body.Read` returns, with an error (or EOF) when `e` -/
  | bodyReadRet (sh : Shared) (c : Nat) (d e : Bool) :
      TStep sh (.hold c (.bodyRead d) .idle) sh (.hold c (.body (d || e)) .idle) []
  /-- `wrap.Close` of a drained body -/
  | closeDrained (sh : Shared) (c : Nat) :
      TStep sh (.hold c (.body true) .idle) sh (.hold c .closing .idle) []
  /-- `wrap.body.Close()` returned: `wrap.conn.put()` -/
  | closed (sh : Shared) (c : Nat) : TStep sh (.hold c .closing .idle) sh (.hold c .put .idle) []
  /-- `wrap.Close` of a body not drained: it starts the drain goroutine and returns nil -/
  | closeUndrained (sh : Shared) (c : Nat) :
      TStep sh (.hold c (.body false) .idle) sh .done [.hold c .drain .idle]
  /-- the drain's `io.Copy` and `wrap.body.Close()` returned: `wrap.conn.put()` -/
  | drained (sh : Shared) (c : Nat) : TStep sh (.hold c .drain .idle) sh (.hold c .put .idle) []
  /-- `conn.put()` up to `putConn` -/
  | putConn (sh : Shared) (c : Nat) :
      TStep sh (.hold c .put .idle) (sh.putConn c) (.hold c .putSend .idle) []
  /-- `transport.connPool <- conn`, which blocks while the channel is full -/
  | poolSend (sh : Shared) (c : Nat) :
      sh.pool.length < sh.cap →
      TStep sh (.hold c .putSend .idle) { sh with pool := sh.pool ++ [c] } .signal []
  /-- `select { case transport.connReleased <- struct{}{}: default: }` -/
  | release (sh : Shared) : TStep sh .signal sh.release .done []

/-- one action of the goroutine of `Shutdown(ctx)`, or the cancellation of its `ctx` -/
inductive SdStep : Shared → Shared → Prop
  /-- `close(transport.shutdown)` -/
  | call (sh : Shared) : sh.sd = .idle → SdStep sh { sh with shutdown := true, sd := .loop }
  /-- `connInUse()` is 0: `break`, `return nil` -/
  | finish (sh : Shared) : sh.sd = .loop → connInUse sh = 0 → SdStep sh { sh with sd := .ok }
  /-- `connInUse()` is `n > 0` -/
  | inUse (sh : Shared) : sh.sd = .loop → connInUse sh ≠ 0 →
      SdStep sh { sh with sd := .log (connInUse sh) }
  /-- the `select` is entered: it returns at once if `ctx` is done, and blocks otherwise -/
  | enter (sh : Shared) (n : Nat) : sh.sd = .log n →
      SdStep sh { sh with sd := if sh.sdCtxDone then .err else .select }
  /-- `ctx` is cancelled, which ends a blocked `select` with `ctx.Err()` -/
  | cancel (sh : Shared) :
      SdStep sh { sh with sdCtxDone := true, sd := if sh.sd = .select then .err else sh.sd }

/-- a transport and the goroutines using it -/
structure Sys where
  sh : Shared
  tasks : List Task

/-- one step of the system -/
inductive Step : Sys → Sys → Prop
  /-- a goroutine moves -/
  | task {sh sh' : Shared} {pre post : List Task} {t t' : Task} {fs : List Task} :
      TStep sh t sh' t' fs → Step ⟨sh, pre ++ t :: post⟩ ⟨sh', pre ++ t' :: post ++ fs⟩
  /-- a new `RoundTrip` is called -/
  | call {sh : Shared} {tasks : List Task} : Step ⟨sh, tasks⟩ ⟨sh, tasks ++ [.start]⟩
  /-- `Shutdown` moves -/
  | shutdown {sh sh' : Shared} {tasks : List Task} : SdStep sh sh' → Step ⟨sh, tasks⟩ ⟨sh', tasks⟩

/-- the transport `t` as `NewUsbTransport` returns it, with no goroutine using it yet -/
def Sys.init (t : UsbTransport) : Sys :=
  ⟨{ cap := t.cap, pool := t.connPool.map UsbConn.index, shutdown := false, sd := .idle,
     sdCtxDone := false, alloc := fun _ => 0, read := fun _ => 0, write := fun _ => 0,
     cntRecv := fun _ => 0, cntSent := fun _ => 0 }, []⟩

/-- the states reachable from a transport that `NewUsbTransport` returned -/
inductive Reach : Sys → Prop
  | init {desc : UsbDeviceDesc} {dev : UsbDevice} {t : UsbTransport} {ops : List UsbOp} :
      newUsbTransport desc dev = (.ok t, ops) → Reach (Sys.init t)
  | step {s s' : Sys} : Reach s → Step s s' → Reach s'

/-! ## what one action of a goroutine changes -/

/-- `1` when the goroutine holds connection `c` -/
def Task.held (c : Nat) : Task → Nat
  | .hold c' _ _ => if c' = c then 1 else 0
  | _ => 0

/-- `1` when the goroutine holds a connection -/
def Task.holding : Task → Nat
  | .hold .. => 1
  | _ => 0

/-- `1` when the goroutine holds `c` between `gotConn` and `putConn` -/
def Task.counted (c : Nat) : Task → Nat
  | .hold c' st _ => if c' = c ∧ st.counted then 1 else 0
  | _ => 0

/-- `1` when the goroutine is inside `conn.Read` (`io = reading`) or `conn.Write` on `c` -/
def Task.inIo (c : Nat) (io : Io) : Task → Nat
  | .hold c' _ io' => if c' = c ∧ io' = io then 1 else 0
  | _ => 0

/-- `1` when the goroutine holds `c` before `connPool <- conn`: only it may touch the byte
counters of `c` -/
def Task.dirty (c : Nat) : Task → Nat
  | .hold c' st _ => if c' = c ∧ st ≠ .putSend then 1 else 0
  | _ => 0

/-- only a reading stage is inside `conn.Read`, only `write` inside `conn.Write` -/
def Task.Wf : Task → Prop
  | .hold _ st .reading => st.reads = true
  | .hold _ st .writing => st = .write
  | _ => True

/-- the sum of `f` over the goroutines -/
def tally (f : Task → Nat) (ts : List Task) : Nat := ts.foldr (fun t n => f t + n) 0

@[simp] theorem tally_nil (f : Task → Nat) : tally f [] = 0 := rfl

@[simp] theorem tally_cons (f : Task → Nat) (t : Task) (ts : List Task) :
    tally f (t :: ts) = f t + tally f ts := rfl

@[simp] theorem tally_append (f : Task → Nat) (a b : List Task) :
    tally f (a ++ b) = tally f a + tally f b := by
  induction a with
  | nil => simp
  | cons t a ih => simp [ih, Nat.add_assoc]

theorem mem_usbConnGet {s d : Bool} {pool : List Nat} {r : GetResult} :
    r ∈ usbConnGet s d pool ↔
      (r = .errShutdown ∧ s = true) ∨ (r = .errCtx ∧ d = true) ∨
        ∃ c rest, pool = c :: rest ∧ r = .conn c := by
  cases s <;> cases d <;> cases pool <;> simp [usbConnGet, eq_comm]

/-- the `select` either ends the round trip with an error or takes the head of `connPool` -/
theorem select_cases {sh : Shared} {d : Bool} {r : GetResult}
    (hr : r ∈ usbConnGet sh.shutdown d sh.pool) :
    (r.task = .done ∧ sh.afterGet r = sh) ∨
      ∃ c rest, sh.pool = c :: rest ∧ r.task = .hold c .got .idle ∧
        sh.afterGet r = { sh with pool := rest } := by
  rcases mem_usbConnGet.mp hr with ⟨rfl, -⟩ | ⟨rfl, -⟩ | ⟨c, rest, hp, rfl⟩
  · exact .inl ⟨rfl, rfl⟩
  · exact .inl ⟨rfl, rfl⟩
  · exact .inr ⟨c, rest, hp, rfl, by simp [Shared.afterGet, hp]⟩

section
variable {sh sh' : Shared} {t t' : Task} {fs : List Task}

theorem TStep.cap_eq (h : TStep sh t sh' t' fs) : sh'.cap = sh.cap := by
  cases h with
  | select d r hr => rcases select_cases hr with ⟨-, h2⟩ | ⟨c, rest, -, -, h2⟩ <;> rw [h2]
  | release => simp only [Shared.release]; split <;> rfl
  | _ => rfl

/-- connections pass between `connPool` and goroutines, one at a time -/
theorem TStep.size (h : TStep sh t sh' t' fs) :
    sh'.pool.length + t'.holding + tally Task.holding fs = sh.pool.length + t.holding := by
  cases h with
  | select d r hr =>
    rcases select_cases hr with ⟨h1, h2⟩ | ⟨c, rest, hp, h1, h2⟩
    · simp [h1, h2, Task.holding]
    · simp [h1, h2, hp, Task.holding]
  | release => simp only [Shared.release]; split <;> rfl
  | poolSend => simp [Task.holding]
  | _ => simp [Task.holding, Shared.putConn]

/-- connection `c` is in `connPool` or held, before and after -/
theorem TStep.own (h : TStep sh t sh' t' fs) (c : Nat) :
    sh'.pool.count c + t'.held c + tally (Task.held c) fs = sh.pool.count c + t.held c := by
  cases h with
  | select d r hr =>
    rcases select_cases hr with ⟨h1, h2⟩ | ⟨c', rest, hp, h1, h2⟩
    · simp [h1, h2, Task.held]
    · simp [h1, h2, hp, Task.held, List.count_cons]
  | release => simp only [Shared.release]; split <;> rfl
  | poolSend => simp [Task.held, List.count_singleton']
  | _ => simp [Task.held, Shared.putConn]

/-- `connstate.alloc` counts the goroutines between `gotConn` and `putConn` -/
theorem TStep.alloc (h : TStep sh t sh' t' fs) (c : Nat) :
    sh'.alloc c + t.counted c = sh.alloc c + (t'.counted c + tally (Task.counted c) fs : Nat) := by
  cases h with
  | select d r hr =>
    rcases select_cases hr with ⟨h1, h2⟩ | ⟨c', rest, hp, h1, h2⟩ <;>
      simp [h1, h2, Task.counted, Stage.counted]
  | release => simp only [Shared.release]; split <;> rfl
  | gotConn c' =>
    by_cases hc : c' = c
    · subst hc; simp [Task.counted, Stage.counted]
    · simp [Task.counted, hc, Ne.symm hc]
  | putConn c' =>
    by_cases hc : c' = c
    · subst hc; simp [Task.counted, Stage.counted, Shared.putConn, Int.neg_add_cancel_right]
    · simp [Task.counted, Shared.putConn, hc, Ne.symm hc]
  | _ => simp [Task.counted, Stage.counted]

/-- `connstate.read` and `connstate.write` count the goroutines inside `conn.Read` and
`conn.Write` -/
theorem TStep.io (h : TStep sh t sh' t' fs) (c : Nat) :
    (sh'.read c + t.inIo c .reading = sh.read c + (t'.inIo c .reading + tally (Task.inIo c .reading) fs : Nat)) ∧
    (sh'.write c + t.inIo c .writing = sh.write c + (t'.inIo c .writing + tally (Task.inIo c .writing) fs : Nat)) := by
  cases h with
  | select d r hr =>
    rcases select_cases hr with ⟨h1, h2⟩ | ⟨c', rest, hp, h1, h2⟩ <;> simp [h1, h2, Task.inIo]
  | release => simp only [Shared.release]; split <;> simp [Task.inIo]
  | beginWrite c' =>
    by_cases hc : c' = c
    · subst hc; simp [Task.inIo]
    · simp [Task.inIo, hc, Ne.symm hc]
  | doneWrite c' =>
    by_cases hc : c' = c
    · subst hc; simp [Task.inIo, Int.neg_add_cancel_right]
    · simp [Task.inIo, hc, Ne.symm hc]
  | beginRead c' =>
    by_cases hc : c' = c
    · subst hc; simp [Task.inIo]
    · simp [Task.inIo, hc, Ne.symm hc]
  | doneRead c' =>
    by_cases hc : c' = c
    · subst hc; simp [Task.inIo, Int.neg_add_cancel_right]
    · simp [Task.inIo, hc, Ne.symm hc]
  | _ => simp [Task.inIo, Shared.putConn]

/-- only a goroutine that holds `c` before `connPool <- conn` changes the byte counters of
`c`, and `conn.put()` zeroes them before that send -/
theorem TStep.cnt (h : TStep sh t sh' t' fs) (ht : t.Wf) (c : Nat) :
    (sh'.cntRecv c = sh.cntRecv c ∧ sh'.cntSent c = sh.cntSent c ∧
        t.dirty c ≤ t'.dirty c + tally (Task.dirty c) fs) ∨
      (sh'.cntRecv c = 0 ∧ sh'.cntSent c = 0) ∨ (t.dirty c = 1 ∧ t'.dirty c = 1) := by
  cases h with
  | select d r hr =>
    rcases select_cases hr with ⟨h1, h2⟩ | ⟨c', rest, hp, h1, h2⟩ <;> simp [h1, h2, Task.dirty]
  | release => simp only [Shared.release]; split <;> simp [Task.dirty]
  | doneWrite c' =>
    by_cases hc : c' = c
    · subst hc; simp [Task.dirty]
    · simp [Task.dirty, hc, Ne.symm hc]
  | doneRead c' st =>
    by_cases hc : c' = c
    · subst hc
      have : st ≠ .putSend := by rintro rfl; simp [Task.Wf, Stage.reads] at ht
      simp [Task.dirty, this]
    · simp [Task.dirty, hc, Ne.symm hc]
  | putConn c' =>
    by_cases hc : c' = c
    · subst hc; simp [Task.dirty, Shared.putConn]
    · simp [Task.dirty, Shared.putConn, Function.update_apply, hc, Ne.symm hc]
  | _ => simp [Task.dirty]

theorem TStep.wf (h : TStep sh t sh' t' fs) (ht : t.Wf) : t'.Wf ∧ ∀ f ∈ fs, f.Wf := by
  cases h with
  | select d r hr =>
    rcases select_cases hr with ⟨h1, -⟩ | ⟨c', rest, -, h1, -⟩ <;> simp [h1, Task.Wf]
  | _ => simp_all [Task.Wf, Stage.reads]

end

end IppUsb
