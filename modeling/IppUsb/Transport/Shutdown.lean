import IppUsb.Transport.Pool

/-!
# `Shutdown`, acquisition after it, and `Close`

`Shutdown(ctx)` closes `transport.shutdown` and then waits, in a loop, until `connInUse()`
is 0, each wait a `select` on `connReleased` and `ctx.Done()`.  `conn.put()` signals
`connReleased` with a non-blocking send; `connReleased` is unbuffered, so the signal reaches
`Shutdown` only if `Shutdown` is already blocked in its `select`.

* `acquire_after_shutdown`  the `select` of `usbConnGet` has no priority among its ready
                         cases: in a reachable state where `transport.shutdown` is closed, or
                         `ctx` is done, it can still hand out the idle connection;
* `shutdown_lost_wakeup` a reachable state where `Shutdown` is blocked in its `select` with
                         `connInUse() = 0` and no release pending: the last release came while
                         `Shutdown` was between reading `connInUse()` and its `select`, and its
                         signal was dropped; `Shutdown` can then only return `ctx.Err()`;
* `close_after_run`      after any interleaving, `Close` resets the device exactly when a
                         goroutine holds a connection, and construction and `Close` together
                         open and close the device and each interface once;
* `shutdown_ok_idle`     `Shutdown` comes to return nil only in a step that finds no goroutine
                         holding a connection.
-/

namespace IppUsb

/-! ## the `select` of `usbConnGet` -/

/-- the one-interface transport after a `RoundTrip` reached the `select` of `usbConnGet` and
`Shutdown` closed `transport.shutdown` -/
def acquireRace : Sys :=
  ⟨{ (Sys.init oneIfTransport).sh with shutdown := true, sd := .loop }, [.get false]⟩

/-- the one-interface transport after a `RoundTrip` whose `ctx` is done reached the `select` of
`usbConnGet` -/
def acquireCancelled : Sys := ⟨(Sys.init oneIfTransport).sh, [.get true]⟩

theorem reach_acquireRace : Reach acquireRace :=
  ((reach_oneIf.step Step.call).step (@Step.task _ _ [] [] _ _ [] (TStep.shaped _ false))).step
    (Step.shutdown (SdStep.call _ rfl))

/-- **Acquisition after `Shutdown`, and with `ctx` done.**  In a reachable state where
`transport.shutdown` is closed and `ctx` is not done, the `select` of `usbConnGet` can take the
idle connection from `connPool`, and the round trip goes on with it; and so it can in a
reachable state where `ctx` is done and `transport.shutdown` is not. -/
theorem acquire_after_shutdown :
    Reach acquireRace ∧ acquireRace.sh.shutdown = true ∧
      Step acquireRace ⟨{ acquireRace.sh with pool := [] }, [.hold 0 .got .idle]⟩ ∧
    Reach acquireCancelled ∧ acquireCancelled.sh.shutdown = false ∧
      Step acquireCancelled ⟨{ acquireCancelled.sh with pool := [] }, [.hold 0 .got .idle]⟩ :=
  ⟨reach_acquireRace, rfl, @Step.task _ _ [] [] _ _ [] (TStep.select _ false (.conn 0) (by decide)),
    (reach_oneIf.step Step.call).step (@Step.task _ _ [] [] _ _ [] (TStep.shaped _ true)), rfl,
    @Step.task _ _ [] [] _ _ [] (TStep.select _ true (.conn 0) (by decide))⟩

/-! ## the lost wake-up -/

/-- the one-interface transport after a round trip took the connection, `Shutdown` read
`connInUse() = 1`, the round trip's `outreq.Write` failed and its `conn.put()` ran to the end
before `Shutdown` entered its `select` -/
def lostWakeup : Sys :=
  ⟨{ cap := 1, pool := [0], shutdown := true, sd := .select, sdCtxDone := false,
     alloc := bump (bump (fun _ => 0) 0 1) 0 (-1), read := fun _ => 0, write := fun _ => 0,
     cntRecv := Function.update (fun _ => 0) 0 0, cntSent := Function.update (fun _ => 0) 0 0 },
   [.done]⟩

/-- **The lost wake-up.**  `lostWakeup` is reachable; in it `Shutdown` is blocked in its
`select`, `connInUse()` is 0 and no `conn.put()` is pending; cancelling its `ctx` then makes
`Shutdown` return `ctx.Err()` although no connection is in use. -/
theorem shutdown_lost_wakeup :
    Reach lostWakeup ∧ lostWakeup.sh.sd = .select ∧ connInUse lostWakeup.sh = 0 ∧
      Task.signal ∉ lostWakeup.tasks ∧
      Step lostWakeup ⟨{ lostWakeup.sh with sdCtxDone := true, sd := .err }, [.done]⟩ := by
  let sh0 := (Sys.init oneIfTransport).sh
  have r2 : Reach ⟨sh0, [.get false]⟩ :=
    (reach_oneIf.step Step.call).step (@Step.task _ _ [] [] _ _ [] (TStep.shaped _ false))
  have r3 : Reach ⟨{ sh0 with pool := [] }, [.hold 0 .got .idle]⟩ :=
    r2.step (@Step.task _ _ [] [] _ _ [] (TStep.select _ false (.conn 0) (by decide)))
  let sh1 : Shared := { sh0 with pool := [], alloc := bump sh0.alloc 0 1 }
  have r4 : Reach ⟨sh1, [.hold 0 .write .idle]⟩ :=
    r3.step (@Step.task _ _ [] [] _ _ [] (TStep.gotConn _ 0))
  have r5 : Reach ⟨{ sh1 with shutdown := true, sd := .loop }, [.hold 0 .write .idle]⟩ :=
    r4.step (Step.shutdown (SdStep.call _ rfl))
  let sh2 : Shared := { sh1 with shutdown := true, sd := .log 1 }
  have r6 : Reach ⟨sh2, [.hold 0 .write .idle]⟩ :=
    r5.step (Step.shutdown (SdStep.inUse _ rfl (by decide)))
  have r7 : Reach ⟨sh2, [.hold 0 .put .idle]⟩ :=
    r6.step (@Step.task _ _ [] [] _ _ [] (TStep.writeErr _ 0))
  have r8 : Reach ⟨sh2.putConn 0, [.hold 0 .putSend .idle]⟩ :=
    r7.step (@Step.task _ _ [] [] _ _ [] (TStep.putConn _ 0))
  have r9 : Reach ⟨{ sh2.putConn 0 with pool := [0] }, [.signal]⟩ :=
    r8.step (@Step.task _ _ [] [] _ _ [] (TStep.poolSend _ 0 (by decide)))
  have r10 : Reach ⟨{ sh2.putConn 0 with pool := [0] }, [.done]⟩ :=
    r9.step (@Step.task _ _ [] [] _ _ [] (TStep.release _))
  have r11 : Reach lostWakeup := r10.step (Step.shutdown (SdStep.enter _ 1 rfl))
  exact ⟨r11, rfl, rfl, by decide, Step.shutdown (SdStep.cancel _)⟩

/-! ## `Close` -/

/-- `transport.Close()` on the transport `t` that `NewUsbTransport` built, in the shared state
`sh` its goroutines have left: whether it calls `transport.dev.Reset()` (`connInUse() > 0`),
and the USB operations that follow, `conn.destroy()` for each connection of `connList` and
`transport.dev.Close()` -/
def UsbTransport.close (t : UsbTransport) (sh : Shared) : Bool × List UsbOp :=
  (decide (connInUse sh > 0), t.connList.map UsbConn.destroy ++ [.closeDev])

theorem Inv.steps {s s' : Sys} (hi : Inv s) (h : Relation.ReflTransGen Step s s') : Inv s' := by
  induction h with
  | refl => exact hi
  | tail _ hs ih => exact ih.step hs

theorem tally_holding_pos_iff (ts : List Task) :
    0 < tally Task.holding ts ↔ ∃ c st io, Task.hold c st io ∈ ts := by
  induction ts with
  | nil => simp
  | cons t ts ih =>
    cases t with
    | hold c st io =>
      exact ⟨fun _ => ⟨c, st, io, .head _⟩, fun _ => by simp only [tally_cons, Task.holding]; omega⟩
    | _ => simp [Task.holding, ih]

/-- **`Close` releases everything construction acquired, once.**  After `NewUsbTransport`
succeeds and the goroutines using the transport take any interleaving of steps, the USB
operations of construction followed by those of `Close` open and close the device once, and
each interface construction opened once each; `Close` resets the device exactly when some
goroutine still holds a connection, as after a `Shutdown` whose `ctx` expired. -/
theorem close_after_run {desc : UsbDeviceDesc} {dev : UsbDevice} {t : UsbTransport}
    {ops : List UsbOp} (ht : newUsbTransport desc dev = (.ok t, ops)) {s : Sys}
    (hs : Relation.ReflTransGen Step (Sys.init t) s) :
    ((t.close s.sh).1 = true ↔ ∃ c st io, Task.hold c st io ∈ s.tasks) ∧
      (ops ++ (t.close s.sh).2).count .openDev = 1 ∧
      (ops ++ (t.close s.sh).2).count .closeDev = 1 ∧
      ∀ x, (ops ++ (t.close s.sh).2).count (.openIf x) = (if x < desc.ifAddrs.length then 1 else 0) ∧
        (ops ++ (t.close s.sh).2).count (.closeIf x) = (if x < desc.ifAddrs.length then 1 else 0) := by
  have hsize := ((Inv.init ht).steps hs).size
  obtain ⟨rfl, rfl⟩ := newUsbTransport_ok ht
  refine ⟨?_, ?_, ?_, fun x => ⟨?_, ?_⟩⟩
  · rw [UsbTransport.close, decide_eq_true_iff, connInUse, ← tally_holding_pos_iff]
    omega
  all_goals simp [UsbTransport.close, List.count_cons, List.count_eq_zero_of_not_mem, UsbConn.destroy,
    count_conns UsbOp.openIf (fun _ _ => UsbOp.openIf.inj) (fun c => .openIf c.index) fun _ => rfl,
    count_conns UsbOp.closeIf (fun _ _ => UsbOp.closeIf.inj) UsbConn.destroy fun _ => rfl,
    count_openIf_destroy, count_closeIf_openIf]

/-- the one-interface transport while a round trip holds its connection, before `gotConn` -/
def oneIfHeld : Sys := ⟨{ (Sys.init oneIfTransport).sh with pool := [] }, [.hold 0 .got .idle]⟩

theorem close_after_run_held :
    newUsbTransport ⟨[⟨1, 0, 0⟩]⟩ oneIfDevice = (.ok oneIfTransport, [.openDev, .openIf 0]) ∧
      Relation.ReflTransGen Step (Sys.init oneIfTransport) oneIfHeld ∧
      (((oneIfTransport.close oneIfHeld.sh).1 = true ↔
          ∃ c st io, Task.hold c st io ∈ oneIfHeld.tasks) ∧
        ([UsbOp.openDev, .openIf 0] ++ (oneIfTransport.close oneIfHeld.sh).2).count .openDev = 1 ∧
        ([UsbOp.openDev, .openIf 0] ++ (oneIfTransport.close oneIfHeld.sh).2).count .closeDev = 1 ∧
        ∀ x, ([UsbOp.openDev, .openIf 0] ++ (oneIfTransport.close oneIfHeld.sh).2).count (.openIf x) =
            (if x < 1 then 1 else 0) ∧
          ([UsbOp.openDev, .openIf 0] ++ (oneIfTransport.close oneIfHeld.sh).2).count (.closeIf x) =
            (if x < 1 then 1 else 0)) := by
  have ht : newUsbTransport ⟨[⟨1, 0, 0⟩]⟩ oneIfDevice = (.ok oneIfTransport, [.openDev, .openIf 0]) :=
    rfl
  have hs : Relation.ReflTransGen Step (Sys.init oneIfTransport) oneIfHeld :=
    ((Relation.ReflTransGen.single Step.call).tail
      (@Step.task _ _ [] [] _ _ [] (TStep.shaped _ false))).tail
      (@Step.task _ _ [] [] _ _ [] (TStep.select _ false (.conn 0) (by decide)))
  exact ⟨ht, hs, close_after_run ht hs⟩

/-! ## `Shutdown` returning nil -/

/-- no goroutine but `Shutdown` makes it return nil: a release only wakes it from its `select` -/
theorem TStep.sd_ok {sh sh' : Shared} {t t' : Task} {fs : List Task}
    (h : TStep sh t sh' t' fs) (hok : sh'.sd = .ok) : sh.sd = .ok := by
  cases h with
  | select d r hr =>
    rcases select_cases hr with ⟨-, h2⟩ | ⟨c, rest, -, -, h2⟩ <;> rw [h2] at hok <;> exact hok
  | release => simp only [Shared.release] at hok; split at hok <;> simp_all
  | _ => exact hok

/-- **`Shutdown` returns nil only with every connection back.**  In every reachable state, the
step in which `Shutdown` comes to return nil finds no goroutine holding a connection: it read
`connInUse() = 0`, and `connInUse()` counts the goroutines that hold one. -/
theorem shutdown_ok_idle {s s' : Sys} (hs : Reach s) (h : Step s s') (hsd : s.sh.sd ≠ .ok)
    (hok : s'.sh.sd = .ok) : ∀ c st io, Task.hold c st io ∉ s.tasks := by
  intro c st io hm
  have hsize := (reach_inv hs).size
  have hheld := (tally_holding_pos_iff s.tasks).mpr ⟨c, st, io, hm⟩
  cases h with
  | task ht => exact hsd (ht.sd_ok hok)
  | call => exact hsd hok
  | shutdown hsd' =>
    cases hsd' with
    | finish _ h0 => simp only [connInUse] at h0 hsize hheld; omega
    | enter n _ => simp only at hok; split at hok <;> cases hok
    | cancel =>
      simp only at hok
      split at hok
      · cases hok
      · exact hsd hok
    | _ => cases hok

theorem shutdown_ok_idle_one :
    Reach acquireRace ∧ Step acquireRace ⟨{ acquireRace.sh with sd := .ok }, [.get false]⟩ ∧
      acquireRace.sh.sd ≠ .ok ∧ (⟨{ acquireRace.sh with sd := .ok }, [.get false]⟩ : Sys).sh.sd = .ok ∧
      ∀ c st io, Task.hold c st io ∉ acquireRace.tasks := by
  have h : Step acquireRace ⟨{ acquireRace.sh with sd := .ok }, [.get false]⟩ :=
    Step.shutdown (SdStep.finish _ rfl rfl)
  exact ⟨reach_acquireRace, h, by decide, rfl, shutdown_ok_idle reach_acquireRace h (by decide) rfl⟩

end IppUsb
