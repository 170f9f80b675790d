import Mathlib.Data.List.GetD

/-!
# `logLineBuf.trim` and UTF-8

`LogMessage.Flush` trims each line before it writes it.  `logLineBuf.trim` drops trailing bytes
while they are one of `'\t' '\n' '\v' '\f' '\r' ' '`, `0x85` or `0xA0`.  It tests bytes, not
characters.  `0x85` and `0xA0` are the Latin-1 codes of NEL and NO-BREAK SPACE, but in UTF-8
they are tail bytes.  They end U+0085 and U+00A0 themselves (`C2 85`, `C2 A0`) and many other
characters: `à` is `C3 A0`, Cyrillic `х` is `D1 85`.  Dropping one of them leaves the first
byte of its character behind.

Valid UTF-8 is what Go's `utf8.Valid` accepts, run here as the machine that reads the text
byte by byte: between characters, or owing tail bytes with the range the next must lie in.

* `Utf8State.step`, `utf8Valid`  the machine, and valid UTF-8;
* `trim`                    the loop of `logLineBuf.trim` and its `Truncate`;
* `trim_spec`               `trim` keeps a prefix and drops only bytes of its `switch`, and
                            what it keeps does not end in one;
* `trim_of_eq_append_cons`  so it keeps every byte up to the last one not of its `switch`;
* `trim_valid_iff`          on valid UTF-8, `trim` leaves valid UTF-8 exactly when every byte it
                            dropped is ASCII;
* `trim_cuts_character`     it cuts `à`, and the no-break space itself, to a lone first byte.
-/

namespace IppUsb

/-! ## valid UTF-8 -/

/-- a tail byte of UTF-8, `80`–`BF` -/
def utf8Tail (b : UInt8) : Bool := 0x80 ≤ b.toNat && b.toNat ≤ 0xBF

/-- where a reader of UTF-8 stands between bytes: between characters, owing one to three tail
bytes, or after a first byte whose next byte has a narrower range -/
inductive Utf8State
  | start
  | tail1
  | tail2
  | tail3
  | afterE0
  | afterED
  | afterF0
  | afterF4
  deriving DecidableEq

/-- one byte of UTF-8 text: the state after it, or `none` where no UTF-8 text can hold it.  A
first byte is ASCII, or `C2`–`F4` owing one to three tail bytes, the second byte after `E0`,
`ED`, `F0` and `F4` in a narrower range (no overlong form, no surrogate, nothing past
U+10FFFF) -/
def Utf8State.step : Utf8State → UInt8 → Option Utf8State
  | .start, b =>
    if b.toNat ≤ 0x7F then some .start
    else if 0xC2 ≤ b.toNat ∧ b.toNat ≤ 0xDF then some .tail1
    else if b.toNat = 0xE0 then some .afterE0
    else if 0xE1 ≤ b.toNat ∧ b.toNat ≤ 0xEC then some .tail2
    else if b.toNat = 0xED then some .afterED
    else if 0xEE ≤ b.toNat ∧ b.toNat ≤ 0xEF then some .tail2
    else if b.toNat = 0xF0 then some .afterF0
    else if 0xF1 ≤ b.toNat ∧ b.toNat ≤ 0xF3 then some .tail3
    else if b.toNat = 0xF4 then some .afterF4
    else none
  | .tail1, b => if utf8Tail b then some .start else none
  | .tail2, b => if utf8Tail b then some .tail1 else none
  | .tail3, b => if utf8Tail b then some .tail2 else none
  | .afterE0, b => if 0xA0 ≤ b.toNat ∧ b.toNat ≤ 0xBF then some .tail1 else none
  | .afterED, b => if 0x80 ≤ b.toNat ∧ b.toNat ≤ 0x9F then some .tail1 else none
  | .afterF0, b => if 0x90 ≤ b.toNat ∧ b.toNat ≤ 0xBF then some .tail2 else none
  | .afterF4, b => if 0x80 ≤ b.toNat ∧ b.toNat ≤ 0x8F then some .tail2 else none

/-- the state after every byte of `bs`, or `none` once one is refused -/
def Utf8State.run (q : Utf8State) : List UInt8 → Option Utf8State
  | [] => some q
  | b :: bs => (q.step b).bind (·.run bs)

/-- `utf8.Valid(bs)`: read from the start, the bytes end between characters -/
def utf8Valid (bs : List UInt8) : Bool := Utf8State.start.run bs = some .start

example : utf8Valid [0xC3, 0xA0] = true ∧ utf8Valid [0xF0, 0x9F, 0x98, 0x80] = true ∧
    utf8Valid [0xC0, 0x80] = false ∧ utf8Valid [0xED, 0xA0, 0x80] = false := by decide

theorem Utf8State.run_append (q : Utf8State) (t s : List UInt8) :
    q.run (t ++ s) = (q.run t).bind (·.run s) := by
  induction t generalizing q with
  | nil => rfl
  | cons b t ih => cases h : q.step b <;> simp [run, h, ih]

/-- an ASCII byte is read only between characters -/
theorem Utf8State.eq_start_of_step_ascii {q q' : Utf8State} {b : UInt8} (hb : b.toNat ≤ 0x7F)
    (h : q.step b = some q') : q = .start := by
  cases q <;> simp [step, utf8Tail] at h ⊢ <;> omega

/-- a tail byte never starts a character -/
theorem Utf8State.step_start_tail {b : UInt8} (hb : utf8Tail b = true) : Utf8State.start.step b = none := by
  simp only [utf8Tail, Bool.and_eq_true, decide_eq_true_eq] at hb
  simp (disch := omega) only [step, if_neg]

/-- after valid UTF-8, a text is valid exactly when what follows is -/
theorem utf8Valid_append {t : List UInt8} (ht : utf8Valid t = true) (s : List UInt8) :
    utf8Valid (t ++ s) = utf8Valid s := by
  simp only [utf8Valid, decide_eq_true_eq] at ht
  simp [utf8Valid, Utf8State.run_append, ht]

/-- a valid text cut before an ASCII byte is valid: an ASCII byte is a whole character -/
theorem utf8Valid_of_append_ascii {t s : List UInt8} {a : UInt8} (ha : a.toNat ≤ 0x7F)
    (h : utf8Valid (t ++ a :: s) = true) : utf8Valid t = true := by
  simp only [utf8Valid, decide_eq_true_eq, Utf8State.run_append] at h ⊢
  cases hq : Utf8State.start.run t with
  | none => simp [hq] at h
  | some q =>
    rw [hq, Option.some_bind, Utf8State.run] at h
    cases hs : q.step a with
    | none => simp [hs] at h
    | some q' => rw [Utf8State.eq_start_of_step_ascii ha hs]

/-! ## `logLineBuf.trim` -/

/-- the bytes `trim`'s `switch` drops: `'\t'`, `'\n'`, `'\v'`, `'\f'`, `'\r'`, `' '`, `0x85`,
`0xA0` -/
def trimSpace (c : UInt8) : Bool :=
  c == 9 || c == 10 || c == 11 || c == 12 || c == 13 || c == 32 || c == 0x85 || c == 0xA0

/-- the loop `for i = len(bytes); i > 0; i--` of `trim`, from `i`: the `i` it breaks at -/
def trimLoop (bs : List UInt8) : Nat → Nat
  | 0 => 0
  | i + 1 => if trimSpace (bs.getD i 0) then trimLoop bs i else i + 1

/-- `buf.trim()`: `buf.Truncate(i)` at the `i` the loop breaks at -/
def trim (bs : List UInt8) : List UInt8 := bs.take (trimLoop bs bs.length)

/-- the loop stops at `k ≤ i`; every byte from `k` to `i` is one `trim` drops, and the byte
before `k` is not -/
theorem trimLoop_spec (bs : List UInt8) (i : Nat) :
    trimLoop bs i ≤ i ∧ (∀ j, trimLoop bs i ≤ j → j < i → trimSpace (bs.getD j 0) = true) ∧
      (0 < trimLoop bs i → trimSpace (bs.getD (trimLoop bs i - 1) 0) = false) := by
  induction i with
  | zero => exact ⟨Nat.le_refl 0, fun j h1 h2 => absurd h2 (by omega), fun h => absurd h (by simp [trimLoop])⟩
  | succ i ih =>
    by_cases hs : trimSpace (bs.getD i 0)
    · simp only [trimLoop, hs, if_true]
      obtain ⟨h1, h2, h3⟩ := ih
      refine ⟨by omega, fun j hj1 hj2 => ?_, h3⟩
      rcases Nat.lt_succ_iff_lt_or_eq.mp hj2 with hj | rfl
      · exact h2 j hj1 hj
      · exact hs
    · simp only [trimLoop, hs, if_false, Bool.false_eq_true]
      exact ⟨Nat.le_refl _, fun j h1 h2 => absurd h2 (by omega), fun _ => by simpa using hs⟩

/-- **What `trim` keeps.**  `trim b` is a prefix of `b`; every byte after it is one of the
`switch`, and its own last byte is not. -/
theorem trim_spec (b : List UInt8) :
    b = trim b ++ b.drop (trim b).length ∧ (∀ c ∈ b.drop (trim b).length, trimSpace c = true) ∧
      ∀ c ∈ (trim b).getLast?, trimSpace c = false := by
  obtain ⟨h1, h2, h3⟩ := trimLoop_spec b b.length
  have hlen : (trim b).length = trimLoop b b.length := by simp [trim, Nat.min_eq_left h1]
  refine ⟨by rw [hlen]; exact (List.take_append_drop _ _).symm, fun c hc => ?_, fun c hc => ?_⟩
  · rw [hlen] at hc
    obtain ⟨j, hj, rfl⟩ := List.getElem_of_mem hc
    rw [List.length_drop] at hj
    rw [List.getElem_drop, ← List.getD_eq_getElem b 0]
    exact h2 _ (by omega) (by omega)
  · rw [List.getLast?_eq_getElem?, hlen] at hc
    obtain ⟨hk, rfl⟩ := List.getElem?_eq_some_iff.mp hc
    have := h3 (by rw [hlen] at hk; omega)
    rw [List.getD_eq_getElem b 0 (by omega)] at this
    simpa only [trim, List.getElem_take] using this

/-- `trim` keeps every byte up to one it does not drop: of `L ++ c :: R` with such a `c` it
keeps `L`, `c` and a prefix of `R` -/
theorem trim_of_eq_append_cons {b L R : List UInt8} {c : UInt8} (hb : b = L ++ c :: R)
    (hc : trimSpace c = false) : ∃ k, trim b = L ++ c :: R.take k := by
  subst hb
  obtain ⟨-, hsp, -⟩ := trim_spec (L ++ c :: R)
  have hlt : L.length < (trim (L ++ c :: R)).length := by
    refine Nat.lt_of_not_le fun hle => ?_
    have hmem : c ∈ (L ++ c :: R).drop (trim (L ++ c :: R)).length := by
      rw [List.drop_append_of_le_length hle]
      exact List.mem_append_right _ (List.mem_cons_self c R)
    simp [hsp c hmem] at hc
  obtain ⟨k, hk⟩ : ∃ k, trimLoop (L ++ c :: R) (L ++ c :: R).length = L.length + (k + 1) := by
    simp only [trim, List.length_take] at hlt
    exact ⟨trimLoop (L ++ c :: R) (L ++ c :: R).length - L.length - 1, by omega⟩
  exact ⟨k, by rw [trim, hk, List.take_append, List.take_succ_cons]⟩

theorem trim_isPrefix (b : List UInt8) : trim b <+: b := ⟨_, (trim_spec b).1.symm⟩

/-! ## `trim` and UTF-8 -/

/-- a byte `trim` drops is ASCII or a tail byte -/
theorem trimSpace_cases {c : UInt8} (h : trimSpace c = true) : c.toNat ≤ 0x7F ∨ utf8Tail c = true := by
  simp only [trimSpace, Bool.or_eq_true, beq_iff_eq] at h
  rcases h with ((((((rfl | rfl) | rfl) | rfl) | rfl) | rfl) | rfl) | rfl <;> decide

/-- valid UTF-8 made only of bytes `trim` drops is ASCII: a tail byte cannot start a character -/
theorem ascii_of_trimSpace {s : List UInt8} (hv : utf8Valid s = true)
    (hs : ∀ c ∈ s, trimSpace c = true) : ∀ c ∈ s, c.toNat ≤ 0x7F := by
  induction s with
  | nil => simp
  | cons c s ih =>
    rcases trimSpace_cases (hs c (List.mem_cons_self c s)) with hc | hc
    · have hv' : utf8Valid s = true := by
        rwa [← List.singleton_append, utf8Valid_append (by simp [utf8Valid, Utf8State.run,
          Utf8State.step, hc])] at hv
      simpa [hc] using ih hv' fun x hx => hs x (List.mem_cons_of_mem c hx)
    · simp [utf8Valid, Utf8State.run, Utf8State.step_start_tail hc] at hv

/-- **`trim` and valid UTF-8.**  On valid UTF-8, what `trim` keeps is valid UTF-8 exactly when
every byte it dropped is ASCII.  So whenever it drops a `0x85` or an `0xA0`, it leaves the first
bytes of a character without their tail. -/
theorem trim_valid_iff (b : List UInt8) (hb : utf8Valid b = true) :
    utf8Valid (trim b) = true ↔ ∀ c ∈ b.drop (trim b).length, c.toNat ≤ 0x7F := by
  obtain ⟨hsplit, hs, -⟩ := trim_spec b
  constructor
  · intro ht
    rw [hsplit, utf8Valid_append ht] at hb
    exact ascii_of_trimSpace hb hs
  · intro ha
    cases hd : b.drop (trim b).length with
    | nil => rw [hd, List.append_nil] at hsplit; rwa [← hsplit]
    | cons a s =>
      rw [hsplit, hd] at hb
      exact utf8Valid_of_append_ascii (ha a (by simp [hd])) hb

theorem trim_valid_iff_cut :
    utf8Valid [0xC3, 0xA0] = true ∧
      (utf8Valid (trim [0xC3, 0xA0]) = true ↔
        ∀ c ∈ ([0xC3, 0xA0] : List UInt8).drop (trim [0xC3, 0xA0]).length, c.toNat ≤ 0x7F) :=
  ⟨by decide, trim_valid_iff _ (by decide)⟩

/-- **`trim` cuts characters.**  `à` (`C3 A0`) is valid UTF-8; `trim` drops its `A0` and keeps
a lone `C3`.  After `a`, the no-break space U+00A0 (`C2 A0`), one of the spaces the `switch`
means, is cut the same way. -/
theorem trim_cuts_character :
    utf8Valid [0xC3, 0xA0] = true ∧ trim [0xC3, 0xA0] = [0xC3] ∧ utf8Valid [0xC3] = false ∧
      utf8Valid [0x61, 0xC2, 0xA0] = true ∧ trim [0x61, 0xC2, 0xA0] = [0x61, 0xC2] ∧
      utf8Valid [0x61, 0xC2] = false := by
  decide

end IppUsb
