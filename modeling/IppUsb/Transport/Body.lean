import Mathlib.Data.List.Count

/-!
# The response body and the release of its connection

`RoundTripWithSession` returns the response with its body wrapped in a
`usbResponseBodyWrapper`.  `Read` passes on what the body returns and sets `drained` on any
error, EOF included.  `Close` calls `conn.put()` at once when `drained` is set; otherwise it
starts a goroutine that copies the rest of the body to `ioutil.Discard`, then closes the body
and calls `conn.put()`.  `Close` records nothing, and the drain goroutine reads the body
itself, not through the wrapper, so it never sets `drained`.

The body's behaviour is the sequence of its `Read` results, chosen freely at each event.  A
drain goroutine is scheduled at each of its reads of the body; `io.Copy` stops at the first
read that returns an error, EOF or another, and the goroutine's `Close` and `conn.put()`
follow it.

* `RespBody`, `RespBody.step`  the wrapper, with ghost counters: drains still copying, calls
                               of `conn.put()`, and those made before the body ended;
* `RespBody.Inv.step`          each `Close` is one `conn.put()` or one drain still copying, and
                               `conn.put()` only follows an error of the body;
* `body_release`               over every sequence of events this holds; with one `Close`,
                               `conn.put()` runs at most once: at the `Close` when an earlier
                               `Read` saw an error, else when a drain read sees one;
* `double_close_puts_twice`    a second `Close` calls `conn.put()` a second time.
-/

namespace IppUsb

/-! ## the wrapper -/

/-- what happens to a response body: a `Read` of the wrapper, on which the body returns `n`
bytes and an error or not; a `Close` of the wrapper; a read of the body by a drain goroutine,
with an error or not -/
inductive BodyEvent
  | read (n : Nat) (err : Bool)
  | close
  | drainRead (err : Bool)
  deriving DecidableEq

/-- a `usbResponseBodyWrapper`, its `count` and `drained`, and ghost state: whether the body
has returned an error, the drain goroutines still copying, the calls of `conn.put()`, and those
of them made before the body returned an error -/
structure RespBody where
  count : Nat
  drained : Bool
  ended : Bool
  drains : Nat
  puts : Nat
  early : Nat
  deriving DecidableEq

/-- the wrapper as `RoundTripWithSession` makes it -/
def RespBody.init : RespBody := ⟨0, false, false, 0, 0, 0⟩

/-- `wrap.conn.put()` -/
def RespBody.put (w : RespBody) : RespBody :=
  { w with puts := w.puts + 1, early := w.early + if w.ended then 0 else 1 }

/-- one event: `usbResponseBodyWrapper.Read`, `usbResponseBodyWrapper.Close`, or one read of a
drain goroutine's `io.Copy(ioutil.Discard, wrap.body)`, which on an error is followed by
`wrap.body.Close()` and `wrap.conn.put()` -/
def RespBody.step (w : RespBody) : BodyEvent → RespBody
  | .read n err =>
    { w with count := w.count + n, drained := w.drained || err, ended := w.ended || err }
  | .close => if w.drained then w.put else { w with drains := w.drains + 1 }
  | .drainRead err =>
    if w.drains = 0 then w
    else if err then { w with ended := true, drains := w.drains - 1 }.put
    else w

/-- the wrapper after a sequence of events -/
def RespBody.run (w : RespBody) (evs : List BodyEvent) : RespBody := evs.foldl step w

@[simp] theorem RespBody.run_nil (w : RespBody) : w.run [] = w := rfl

@[simp] theorem RespBody.run_cons (w : RespBody) (e : BodyEvent) (evs : List BodyEvent) :
    w.run (e :: evs) = (w.step e).run evs := rfl

theorem RespBody.run_append (w : RespBody) (evs evs' : List BodyEvent) :
    w.run (evs ++ evs') = (w.run evs).run evs' := List.foldl_append _ _ _ _

/-! ## the invariant -/

/-- what holds after any sequence of events with `k` `Close`s among them -/
structure RespBody.Inv (w : RespBody) (k : Nat) : Prop where
  release : w.puts + w.drains = k
  ended_of_drained : w.drained = true → w.ended = true
  early : w.early = 0

theorem RespBody.Inv.step {w : RespBody} {k : Nat} (h : w.Inv k) (e : BodyEvent) :
    (w.step e).Inv (k + if e = .close then 1 else 0) := by
  obtain ⟨hr, hd, he⟩ := h
  cases e with
  | read n err => exact ⟨by simpa [RespBody.step] using hr, by cases err <;> simp [RespBody.step]; exact hd, he⟩
  | close =>
    by_cases hw : w.drained
    · exact ⟨by simp [RespBody.step, hw, put]; omega, by simp [RespBody.step, hw, put, hd hw],
        by simp [RespBody.step, hw, put, hd hw, he]⟩
    · simp only [Bool.not_eq_true] at hw
      exact ⟨by simp [RespBody.step, hw]; omega, by simp [RespBody.step, hw], by simpa [RespBody.step, hw] using he⟩
  | drainRead err =>
    simp only [reduceCtorEq, if_false, Nat.add_zero]
    by_cases h0 : w.drains = 0
    · simpa [RespBody.step, h0] using (⟨hr, hd, he⟩ : w.Inv k)
    cases err
    · simpa [RespBody.step, h0] using (⟨hr, hd, he⟩ : w.Inv k)
    · exact ⟨by simp [RespBody.step, h0, put]; omega, by simp [RespBody.step, h0, put], by simp [RespBody.step, h0, put, he]⟩

theorem RespBody.Inv.run {w : RespBody} {k : Nat} (h : w.Inv k) (evs : List BodyEvent) :
    (w.run evs).Inv (k + evs.count .close) := by
  induction evs generalizing w k with
  | nil => exact h
  | cons e evs ih =>
    have := ih (h.step e)
    rw [run_cons, List.count_cons]
    by_cases he : e = .close <;> simp_all [Nat.add_comm, Nat.add_left_comm]

theorem RespBody.init_inv : RespBody.init.Inv 0 := ⟨rfl, nofun, rfl⟩

/-! ## one `Close` -/

theorem RespBody.run_drained (w : RespBody) (evs : List BodyEvent) (hc : .close ∉ evs) :
    (w.run evs).drained = true ↔ w.drained = true ∨ ∃ n, .read n true ∈ evs := by
  induction evs generalizing w with
  | nil => simp
  | cons e evs ih =>
    rw [run_cons, ih _ (fun h => hc (List.mem_cons_of_mem _ h))]
    cases e with
    | read n err => cases err <;> simp [step]
    | close => simp at hc
    | drainRead err =>
      by_cases h0 : w.drains = 0 <;> cases err <;> simp [step, h0, put]

/-- with one drain left to finish and no more `Close`, `conn.put()` has run once at the end
exactly when it had run already or a drain read sees an error -/
theorem RespBody.run_puts_one (w : RespBody) (evs : List BodyEvent) (hc : .close ∉ evs)
    (h : w.puts + w.drains = 1) :
    (w.run evs).puts = 1 ↔ w.puts = 1 ∨ .drainRead true ∈ evs := by
  induction evs generalizing w with
  | nil => simp
  | cons e evs ih =>
    have hc' : .close ∉ evs := fun h => hc (List.mem_cons_of_mem _ h)
    rw [run_cons]
    cases e with
    | read n err => simpa [step] using ih (w.step (.read n err)) hc' (by simpa [step] using h)
    | close => simp at hc
    | drainRead err =>
      by_cases h0 : w.drains = 0
      · have hp : w.puts = 1 := by omega
        simpa [step, h0, hp] using ih w hc' h
      cases err
      · simpa [step, h0] using ih w hc' h
      · have hp : w.puts = 0 := by omega
        rw [ih _ hc' (by simp [step, h0, put]; omega)]
        simp [step, h0, put, hp]

/-- **One `Close`, one release.**  Over every sequence of `Read`s, `Close`s and drain reads,
with every result of the body, each `Close` has led to one call of `conn.put()` or to one drain
goroutine still copying, and no call of `conn.put()` came before the body returned EOF or an
error.  With a single `Close`, `conn.put()` runs at most once: at the `Close` itself when an
earlier `Read` saw EOF or an error, and otherwise when a drain read sees one. -/
theorem body_release :
    (∀ evs, (RespBody.init.run evs).early = 0 ∧
      (RespBody.init.run evs).puts + (RespBody.init.run evs).drains = evs.count .close) ∧
    ∀ pre post, .close ∉ pre → .close ∉ post →
      (RespBody.init.run (pre ++ .close :: post)).puts ≤ 1 ∧
      ((RespBody.init.run (pre ++ [.close])).puts = 1 ↔ ∃ n, .read n true ∈ pre) ∧
      ((RespBody.init.run (pre ++ .close :: post)).puts = 1 ↔
        (∃ n, .read n true ∈ pre) ∨ .drainRead true ∈ post) := by
  have hinv evs := RespBody.init_inv.run evs
  refine ⟨fun evs => ⟨(hinv evs).early, by simpa using (hinv evs).release⟩,
    fun pre post hpre hpost => ?_⟩
  have hc0 := List.count_eq_zero_of_not_mem hpre
  have hp0 : (RespBody.init.run pre).puts = 0 := by have := (hinv pre).release; omega
  have hd : (RespBody.init.run pre).drained = true ↔ ∃ n, .read n true ∈ pre := by
    simpa [RespBody.init] using RespBody.run_drained RespBody.init pre hpre
  have hsync : (RespBody.init.run (pre ++ [.close])).puts = 1 ↔ ∃ n, .read n true ∈ pre := by
    rw [RespBody.run_append, ← hd]
    by_cases h : (RespBody.init.run pre).drained <;> simp [RespBody.step, h, RespBody.put, hp0]
  have hsum := (hinv (pre ++ [.close])).release
  have hend := ((hinv (pre ++ [.close])).run post).release
  simp only [List.count_append, hc0, List.count_singleton_self, List.count_eq_zero_of_not_mem hpost,
    Nat.zero_add, Nat.add_zero] at hsum hend
  rw [show pre ++ .close :: post = (pre ++ [.close]) ++ post by simp, RespBody.run_append,
    RespBody.run_puts_one _ post hpost hsum, hsync]
  exact ⟨by omega, Iff.rfl, Iff.rfl⟩

/-- **A second `Close`.**  After a `Read` that saw EOF, each `Close` finds `drained` set and
calls `conn.put()`; without such a `Read`, each `Close` starts a drain goroutine, and each of
them calls `conn.put()` when the body ends.  Either way two `Close`s release the connection
twice. -/
theorem double_close_puts_twice :
    (RespBody.init.run [.read 0 true, .close, .close]).puts = 2 ∧
      (RespBody.init.run [.close, .close, .drainRead true, .drainRead true]).puts = 2 := by
  decide

end IppUsb
