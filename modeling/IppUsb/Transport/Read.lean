import Mathlib.Data.Nat.Bitwise

/-!
# `usbConn.Read`: aligned bulk-in transfers with zero-read recovery

`usbConn.Read` truncates a buffer of at least 512 bytes to a multiple of 512 (so that libusb
never overflows on a short packet) and calls `iface.Recv` until a call returns data or an
error.  After each zero-size read it clears the halt of the input endpoint and sleeps; the
back-off starts at 100 ms and doubles, up to one second.

* `alignLen L`          the length handed to `Recv` for a caller's buffer of `L` bytes;
* `readLoop`            the `for` loop of `usbConn.Read`, on the sequence of `Recv` results,
                        with fuel (the loop has no bound of its own);
* `alignLen_spec`       below 512 the buffer is kept, else it is cut to the largest multiple
                        of 512 that fits, which is never 0;
* `readLoop_zeroReads`  `m` zero reads, then the first result with data or an error: the calls
                        made, the value returned and the byte count;
* `readLoop_done`       `Read` never returns `(0, nil)`;
* `readLoop_stalls`     on a device that only ever answers `(0, nil)`, `Read` never returns.
-/

namespace IppUsb

/-- a non-nil Go `error`, known by its text -/
structure GoError where
  msg : String
  deriving DecidableEq, Repr

/-- the result `(n, err)` of one `iface.Recv` call -/
structure RecvResult where
  n : Nat
  err : Option GoError
  deriving DecidableEq, Repr

/-- `n != 0 || err != nil`: the test that ends the loop -/
def RecvResult.done (r : RecvResult) : Bool := r.n != 0 || r.err.isSome

/-- the calls `usbConn.Read` makes on the USB interface -/
inductive UsbCall
  | recv (len : Nat)
  | clearHalt
  | sleep (d : Nat)
  deriving DecidableEq, Repr

/-- `time.Millisecond`, in nanoseconds (`time.Duration`) -/
def millisecond : Nat := 1000000

/-- `if n := len(b); n >= 512 { n &= ^511 }`: on a non-negative `int`, `n & ^511` clears the
nine low bits -/
def alignLen (n : Nat) : Nat := if n ≥ 512 then Nat.ldiff n 511 else n

/-- `backoff *= 2; if backoff > time.Millisecond*1000 { backoff = time.Millisecond * 1000 }` -/
def nextBackoff (backoff : Nat) : Nat :=
  if backoff * 2 > millisecond * 1000 then millisecond * 1000 else backoff * 2

/-- what one run of `Read` did: the interface calls, in order, the value returned (`none`
while the loop is still running) and `conn.cntRecv` after it -/
structure ReadRun where
  calls : List UsbCall
  result : Option RecvResult
  cntRecv : Nat

/-- the `for` loop of `usbConn.Read`, from the `j`-th call of `Recv` on (`recv j` is its
result), with the back-off `backoff` and the byte count `cnt` -/
def readLoop (recv : Nat → RecvResult) (len : Nat) : (fuel j backoff cnt : Nat) → ReadRun
  | 0, _, _, cnt => ⟨[], none, cnt⟩
  | fuel + 1, j, backoff, cnt =>
    if (recv j).done then ⟨[.recv len], some (recv j), cnt + (recv j).n⟩
    else
      let rest := readLoop recv len fuel (j + 1) (nextBackoff backoff) (cnt + (recv j).n)
      ⟨.recv len :: .clearHalt :: .sleep backoff :: rest.calls, rest.result, rest.cntRecv⟩

/-- `usbConn.Read` on a buffer of `L` bytes, with `conn.cntRecv = cnt` -/
def usbConnRead (recv : Nat → RecvResult) (L fuel cnt : Nat) : ReadRun :=
  readLoop recv (alignLen L) fuel 0 (millisecond * 100) cnt

/-! ## alignment -/

theorem ldiff_511 (n : Nat) : Nat.ldiff n 511 = n / 512 * 512 := by
  apply Nat.eq_of_testBit_eq
  intro i
  have h511 : (511 : Nat) = 2 ^ 9 - 1 := rfl
  have h512 : n / 512 * 512 = (n >>> 9) <<< 9 := by
    rw [Nat.shiftLeft_eq, Nat.shiftRight_eq_div_pow]
  rw [Nat.testBit_ldiff, h511, Nat.testBit_two_pow_sub_one, h512, Nat.testBit_shiftLeft,
    Nat.testBit_shiftRight]
  by_cases hi : i < 9
  · simp [hi]
  · simp [hi, show 9 + (i - 9) = i by omega]
    omega

theorem alignLen_of_lt {n : Nat} (h : n < 512) : alignLen n = n := by
  simp [alignLen, Nat.not_le.mpr h]

theorem alignLen_of_ge {n : Nat} (h : 512 ≤ n) : alignLen n = n / 512 * 512 := by
  simp [alignLen, h, ldiff_511]

/-- **Alignment.**  A buffer below 512 bytes is passed whole; a larger one is cut to the
largest multiple of 512 that fits, which is positive. -/
theorem alignLen_spec (n : Nat) :
    (n < 512 → alignLen n = n) ∧
    (512 ≤ n → alignLen n = Nat.ldiff n 511 ∧ 512 ∣ alignLen n ∧ alignLen n ≤ n ∧
      n < alignLen n + 512 ∧ 0 < alignLen n) := by
  refine ⟨alignLen_of_lt, fun h => ?_⟩
  have e := alignLen_of_ge h
  refine ⟨by simp [alignLen, h], ?_, ?_, ?_, ?_⟩ <;> rw [e]
  · exact Nat.dvd_mul_left 512 _
  · exact Nat.div_mul_le_self n 512
  · omega
  · omega

theorem alignLen_pos {n : Nat} (h : 0 < n) : 0 < alignLen n := by
  by_cases h' : n < 512
  · rw [alignLen_of_lt h']; exact h
  · rw [alignLen_of_ge (by omega)]; omega

/-! ## the back-off -/

/-- the sleep after the `j`-th zero read (`j ≥ 1`), in milliseconds -/
def backoffMs (j : Nat) : Nat := min (100 * 2 ^ (j - 1)) 1000

theorem backoffMs_succ (j : Nat) : backoffMs (j + 1) = min (100 * 2 ^ j) 1000 := rfl

theorem nextBackoff_backoffMs (j : Nat) :
    nextBackoff (millisecond * backoffMs (j + 1)) = millisecond * backoffMs (j + 2) := by
  simp only [nextBackoff, backoffMs_succ, millisecond, Nat.pow_succ]
  split <;> omega

/-- the calls of `m` zero reads from the `j`-th one on: `Recv`, `ClearHalt`, and the sleep -/
def zeroReads (len j : Nat) : Nat → List UsbCall
  | 0 => []
  | m + 1 => .recv len :: .clearHalt :: .sleep (millisecond * backoffMs (j + 1)) ::
      zeroReads len (j + 1) m

/-! ## the loop -/

/-- `(0, nil)`, the zero-size read -/
def zeroRead : RecvResult := ⟨0, none⟩

theorem done_iff (r : RecvResult) : r.done = false ↔ r = zeroRead := by
  obtain ⟨n, e⟩ := r
  cases e <;> simp [RecvResult.done, zeroRead]

theorem readLoop_done_step {recv : Nat → RecvResult} {len fuel j b cnt : Nat}
    (h : (recv j).done = true) :
    readLoop recv len (fuel + 1) j b cnt = ⟨[.recv len], some (recv j), cnt + (recv j).n⟩ := by
  simp [readLoop, h]

theorem readLoop_zero_step {recv : Nat → RecvResult} {len fuel j b cnt : Nat}
    (h : recv j = zeroRead) :
    readLoop recv len (fuel + 1) j b cnt =
      let rest := readLoop recv len fuel (j + 1) (nextBackoff b) cnt
      ⟨.recv len :: .clearHalt :: .sleep b :: rest.calls, rest.result, rest.cntRecv⟩ := by
  have hd : (recv j).done = false := (done_iff _).mpr h
  rw [readLoop, if_neg (by simp [hd]), h]
  rfl

/-- **Zero reads, then a result.**  If the calls `j, …, j+m-1` of `Recv` return `(0, nil)` and
call `j+m` returns data or an error, then with enough fuel the loop makes exactly those `m+1`
calls, clearing the halt and sleeping `backoffMs` after each zero read, returns the last
result and adds its count to `cntRecv`. -/
theorem readLoop_zeroReads (recv : Nat → RecvResult) (len : Nat) :
    ∀ (m fuel j cnt : Nat), (∀ i < m, recv (j + i) = zeroRead) → (recv (j + m)).done = true →
      m < fuel →
      readLoop recv len fuel j (millisecond * backoffMs (j + 1)) cnt =
        ⟨zeroReads len j m ++ [.recv len], some (recv (j + m)), cnt + (recv (j + m)).n⟩ := by
  intro m
  induction m with
  | zero =>
    intro fuel j cnt _ hd hf
    obtain ⟨fuel, rfl⟩ : ∃ f, fuel = f + 1 := ⟨fuel - 1, by omega⟩
    simpa [zeroReads] using readLoop_done_step hd
  | succ m ih =>
    intro fuel j cnt hz hd hf
    obtain ⟨fuel, rfl⟩ : ∃ f, fuel = f + 1 := ⟨fuel - 1, by omega⟩
    have h0 : recv j = zeroRead := by simpa using hz 0 (by omega)
    have hz' : ∀ i < m, recv (j + 1 + i) = zeroRead := fun i hi => by
      rw [Nat.add_right_comm, Nat.add_assoc]; exact hz (i + 1) (by omega)
    have hd' : (recv (j + 1 + m)).done = true := by rwa [Nat.add_right_comm, Nat.add_assoc]
    rw [readLoop_zero_step h0, nextBackoff_backoffMs, ih fuel (j + 1) cnt hz' hd' (by omega)]
    simp [zeroReads, Nat.add_right_comm j 1 m, Nat.add_assoc]

/-- **`Read` never returns `(0, nil)`.** -/
theorem readLoop_done (recv : Nat → RecvResult) (len : Nat) :
    ∀ (fuel j b cnt : Nat) (r : RecvResult),
      (readLoop recv len fuel j b cnt).result = some r → r.done = true := by
  intro fuel
  induction fuel with
  | zero => intro j b cnt r h; simp [readLoop] at h
  | succ fuel ih =>
    intro j b cnt r h
    by_cases hd : (recv j).done
    · rw [readLoop_done_step hd] at h
      cases h; exact hd
    · rw [readLoop_zero_step ((done_iff _).mp (by simpa using hd))] at h
      exact ih _ _ _ _ h

/-- **A stalled device.**  When every `Recv` returns `(0, nil)`, no amount of fuel makes the
loop return. -/
theorem readLoop_stalls (recv : Nat → RecvResult) (len : Nat) (h : ∀ j, recv j = zeroRead) :
    ∀ (fuel j b cnt : Nat), (readLoop recv len fuel j b cnt).result = none := by
  intro fuel
  induction fuel with
  | zero => intro j b cnt; rfl
  | succ fuel ih =>
    intro j b cnt
    rw [readLoop_zero_step (h j)]
    exact ih _ _ _


/-! ## `usbConn.Read` -/

/-- **`usbConn.Read`.**  For a buffer of `L` bytes and any sequence of `Recv` results: `Recv`
gets `L` bytes below 512 and `L &^ 511` above, the largest multiple of 512 that fits, never 0
when `L ≥ 1`; if call `m` is the first that returns data or an error, `Read` makes `m` zero
reads, each followed by `ClearHalt` and a sleep of `min (100 * 2^(j-1)) 1000` ms after the
`j`-th, then returns that result and adds its count to `cntRecv`; it never returns `(0, nil)`;
and when no call returns data or an error it never returns. -/
theorem usbConnRead_spec (recv : Nat → RecvResult) (L : Nat) :
    (0 < L → 0 < alignLen L) ∧ (L < 512 → alignLen L = L) ∧
    (512 ≤ L → alignLen L = Nat.ldiff L 511 ∧ 512 ∣ alignLen L ∧ alignLen L ≤ L ∧
      L < alignLen L + 512) ∧
    (∀ m fuel cnt, (∀ i < m, recv i = zeroRead) → (recv m).done = true → m < fuel →
      usbConnRead recv L fuel cnt =
        ⟨zeroReads (alignLen L) 0 m ++ [.recv (alignLen L)], some (recv m),
          cnt + (recv m).n⟩) ∧
    (∀ fuel cnt r, (usbConnRead recv L fuel cnt).result = some r → r ≠ zeroRead) ∧
    ((∀ j, recv j = zeroRead) → ∀ fuel cnt, (usbConnRead recv L fuel cnt).result = none) := by
  obtain ⟨hlt, hge⟩ := alignLen_spec L
  refine ⟨alignLen_pos, hlt, fun h => (hge h).imp_right fun h' => h'.imp_right fun h'' =>
    ⟨h''.1, h''.2.1⟩, fun m fuel cnt hz hd hf => ?_, fun fuel cnt r h => ?_,
    fun h fuel cnt => readLoop_stalls recv _ h fuel 0 _ cnt⟩
  · have e := readLoop_zeroReads recv (alignLen L) m fuel 0 cnt (by simpa using hz)
      (by simpa using hd) hf
    simpa using e
  · intro hr
    have := readLoop_done recv _ fuel 0 _ cnt r h
    rw [hr] at this
    exact absurd this (by decide)

example : (usbConnRead (fun j => if j < 3 then zeroRead else ⟨7, none⟩) 100 5 0).calls =
    [.recv 100, .clearHalt, .sleep (100 * millisecond), .recv 100, .clearHalt,
      .sleep (200 * millisecond), .recv 100, .clearHalt, .sleep (400 * millisecond),
      .recv 100] := by decide

end IppUsb
