import IppUsb.Log.HexDump
import IppUsb.Log.Lossless
import Mathlib.Algebra.Group.Nat.Basic

/-!
# What `Flush` writes

Flushing the root runs the loop `for _, l := range msg.lines` over its lines.  Each turn trims
the line (`l.trim()`); a line of a level in `levels` then goes to `outhook` as the time prefix
of `fmtTime`, a space when that prefix is not empty and the line is not, the line, and `'\n'`;
and each carbon-copy logger whose levels hold the line's level gets the trimmed line by
`addBytes(level, 0, line)` in the message its `Begin()` made, committed after the loop.  The
time prefix is empty unless the logger writes to a file; there it is
`%2.2d-%2.2d-%4.4d %2.2d:%2.2d:%2.2d:` of the clock.

* `decPad`, `fmtTime`           `%k.kd`, and the time prefix: 20 bytes, none of them `'\n'`,
                                for a clock whose year has four digits;
* `renderLine`, `flushLoop`     one turn of the loop, and the loop;
* `flushLoop_spec`              the loop hands on the lines of a level in `levels`, in order, and
                                gives each carbon copy the trimmed lines of its levels, none of
                                which its `addBytes` refuses;
* `flushLoop_buf`               over the lines of the message model, the loop writes those of
                                a level in `levels`, each rendered;
* `splitOn_lines`               written lines free of `'\n'` split back into themselves;
* `readTime_fmtTime`            the time prefix reads back as the clock;
* `fileLine_hexLine`            a line of a hex dump, past its time prefix, is the trimmed line.
-/

namespace IppUsb

open scoped List

/-! ## splitting at a separator -/

section split

variable {α β : Type} [DecidableEq α]

theorem splitOn_of_not_mem {s : α} {xs : List α} (h : s ∉ xs) : xs.splitOn s = [xs] :=
  List.splitOnP_eq_single _ _ fun x hx hxs => h (by rw [← beq_iff_eq.mp hxs]; exact hx)

/-- a separator cuts a list into what lies before it and what lies after it -/
theorem splitOn_append_cons (s : α) (A C : List α) :
    (A ++ s :: C).splitOn s = A.splitOn s ++ C.splitOn s := by
  induction A with
  | nil => simp [List.splitOn, List.splitOnP_cons]
  | cons a A ih =>
    simp only [List.splitOn, List.cons_append, List.splitOnP_cons] at ih ⊢
    rw [ih]
    split
    · rfl
    · obtain ⟨x, X, hx⟩ := List.exists_cons_of_ne_nil (List.splitOnP_ne_nil (· == s) A)
      rw [hx]
      rfl

/-- pieces each followed by the separator split back into the pieces' own parts -/
theorem splitOn_flatMap_sep (s : α) (xs : List β) (g : β → List α) (C : List α) :
    (xs.flatMap (fun x => g x ++ [s]) ++ C).splitOn s =
      xs.flatMap (fun x => (g x).splitOn s) ++ C.splitOn s := by
  induction xs with
  | nil => rfl
  | cons x xs ih =>
    rw [List.flatMap_cons, List.append_assoc, List.append_assoc, List.singleton_append,
      splitOn_append_cons, ih, List.flatMap_cons, List.append_assoc]

/-- lines free of the separator, each followed by it, split back into the lines -/
theorem splitOn_lines (s : α) (xs : List β) (g : β → List α) (h : ∀ x ∈ xs, s ∉ g x) (C : List α) :
    (xs.flatMap (fun x => g x ++ [s]) ++ C).splitOn s = xs.map g ++ C.splitOn s := by
  rw [splitOn_flatMap_sep, List.flatMap_congr fun x hx => splitOn_of_not_mem (h x hx),
    ← List.map_eq_flatMap]

/-- after a list that is empty or ends with the separator, what follows splits on its own -/
theorem splitOn_append_of_getLast (s : α) (A C : List α) (h : ∀ c ∈ A.getLast?, c = s) :
    ∃ P, (A ++ C).splitOn s = P ++ C.splitOn s := by
  cases hA : A.getLast? with
  | none => exact ⟨[], by rw [List.getLast?_eq_none_iff.mp hA]; rfl⟩
  | some c =>
    obtain ⟨Y, rfl⟩ := List.getLast?_eq_some_iff.mp hA
    obtain rfl := h c (by rw [hA]; rfl)
    exact ⟨Y.splitOn c, by rw [List.append_assoc, List.singleton_append, splitOn_append_cons]⟩

end split

/-- a list of pieces each followed by the separator is empty or ends with it -/
theorem getLast?_flatMap_sep {α β : Type} (s : α) (xs : List β) (g : β → List α) :
    ∀ c ∈ (xs.flatMap fun x => g x ++ [s]).getLast?, c = s := by
  induction xs with
  | nil => simp
  | cons x xs ih =>
    intro c hc
    rw [List.flatMap_cons, List.getLast?_append] at hc
    cases h : (xs.flatMap fun x => g x ++ [s]).getLast? with
    | none => simp_all
    | some d => rw [h] at hc; exact ih c (h ▸ hc)

/-- two lists each empty or ending with the separator end so together -/
theorem getLast?_append_of {α : Type} {s : α} {A B : List α} (hA : ∀ c ∈ A.getLast?, c = s)
    (hB : ∀ c ∈ B.getLast?, c = s) : ∀ c ∈ (A ++ B).getLast?, c = s := by
  intro c hc
  rw [List.getLast?_append] at hc
  cases h : B.getLast? with
  | none => rw [h, Option.none_or] at hc; exact hA c hc
  | some d => rw [h, Option.or_some] at hc; exact hB c (by rw [h]; exact hc)

/-! ## `%d` and the time prefix -/

/-- `%d` of `n ≥ 0`: its decimal digits, the first first, with no leading zero -/
def decDigits (n : Nat) : List UInt8 :=
  (if _h : n < 10 then [] else decDigits (n / 10)) ++ [UInt8.ofNat (48 + n % 10)]
termination_by n
decreasing_by omega

theorem decDigits_length_le {n k : Nat} (hk : 0 < k) (h : n < 10 ^ k) :
    (decDigits n).length ≤ k := by
  induction n using decDigits.induct generalizing k with
  | case1 n ih =>
    rw [decDigits, List.length_append, List.length_singleton]
    split
    · simp only [List.length_nil]; omega
    · rename_i hn
      obtain ⟨k, rfl⟩ : ∃ k', k = k' + 1 := ⟨k - 1, by omega⟩
      rw [Nat.pow_succ'] at h
      have hk' : 0 < k := Nat.pos_of_ne_zero fun h0 => by subst h0; omega
      have := ih hn hk' (Nat.div_lt_of_lt_mul h)
      omega

/-- a decimal digit is not `'\n'` -/
theorem decDigit_ne {d : Nat} (hd : d < 10) : UInt8.ofNat (48 + d) ≠ 10 := by
  rcases d with _ | _ | _ | _ | _ | _ | _ | _ | _ | _ | d
  all_goals first | decide | omega

/-- every byte `%d` writes is a decimal digit -/
theorem mem_decDigits {n : Nat} {c : UInt8} (hc : c ∈ decDigits n) :
    ∃ d < 10, c = UInt8.ofNat (48 + d) := by
  induction n using decDigits.induct with
  | case1 n ih =>
    rw [decDigits] at hc
    rcases List.mem_append.mp hc with hc | hc
    · split at hc
      · simp at hc
      · exact ih ‹_› hc
    · exact ⟨n % 10, Nat.mod_lt _ (by omega), List.mem_singleton.mp hc⟩

/-- `%k.kd` of `n ≥ 0`: at least `k` digits, with leading zeros -/
def decPad (k n : Nat) : List UInt8 := List.replicate (k - (decDigits n).length) 48 ++ decDigits n

theorem decPad_length {k n : Nat} (hk : 0 < k) (h : n < 10 ^ k) : (decPad k n).length = k := by
  have := decDigits_length_le hk h
  simp only [decPad, List.length_append, List.length_replicate]
  omega

theorem mem_decPad {k n : Nat} {c : UInt8} (hc : c ∈ decPad k n) :
    ∃ d < 10, c = UInt8.ofNat (48 + d) := by
  rcases List.mem_append.mp hc with hc | hc
  · exact ⟨0, by omega, List.eq_of_mem_replicate hc⟩
  · exact mem_decDigits hc

theorem ten_not_mem_decPad (k n : Nat) : (10 : UInt8) ∉ decPad k n := fun hc => by
  obtain ⟨d, hd, he⟩ := mem_decPad hc
  exact decDigit_ne hd he.symm

/-- `time.Now()` as `fmtTime` reads it: `now.Date()` and `now.Clock()` -/
structure Clock where
  day : Nat
  month : Nat
  year : Nat
  hour : Nat
  min : Nat
  sec : Nat
  deriving DecidableEq, Repr

/-- a reading of the clock, with a year of at most four digits -/
def Clock.valid (t : Clock) : Bool :=
  t.day ≤ 31 && t.month ≤ 12 && t.year < 10000 && t.hour < 24 && t.min < 60 && t.sec < 60

/-- `l.fmtTime()`: `"%2.2d-%2.2d-%4.4d %2.2d:%2.2d:%2.2d:"` of the clock when the logger
writes to a file, nothing otherwise -/
def fmtTime (mode : LoggerMode) (t : Clock) : List UInt8 :=
  if mode = .file then
    decPad 2 t.day ++ [45] ++ decPad 2 t.month ++ [45] ++ decPad 4 t.year ++ [32] ++
      decPad 2 t.hour ++ [58] ++ decPad 2 t.min ++ [58] ++ decPad 2 t.sec ++ [58]
  else []

/-- the time prefix of a file is 20 bytes -/
theorem fmtTime_length {t : Clock} (ht : t.valid = true) : (fmtTime .file t).length = 20 := by
  simp only [Clock.valid, Bool.and_eq_true, decide_eq_true_eq] at ht
  obtain ⟨⟨⟨⟨⟨h1, h2⟩, h3⟩, h4⟩, h5⟩, h6⟩ := ht
  simp only [fmtTime, if_true, List.length_append, List.length_singleton,
    @decPad_length 2 _ (by decide) (show t.day < 100 by omega),
    @decPad_length 2 _ (by decide) (show t.month < 100 by omega),
    @decPad_length 4 _ (by decide) (show t.year < 10000 by omega),
    @decPad_length 2 _ (by decide) (show t.hour < 100 by omega),
    @decPad_length 2 _ (by decide) (show t.min < 100 by omega),
    @decPad_length 2 _ (by decide) (show t.sec < 100 by omega)]

theorem ten_not_mem_fmtTime (mode : LoggerMode) (t : Clock) : (10 : UInt8) ∉ fmtTime mode t := by
  unfold fmtTime
  split <;> simp [ten_not_mem_decPad]

/-! ## reading the time back -/

/-- a separator of the time prefix: `'-'`, `' '` or `':'` -/
def timeSep (c : UInt8) : Bool := c == 45 || c == 32 || c == 58

theorem timeSep_decDigit {d : Nat} (hd : d < 10) : timeSep (UInt8.ofNat (48 + d)) = false := by
  rcases d with _ | _ | _ | _ | _ | _ | _ | _ | _ | _ | d
  all_goals first | decide | omega

/-- the value of a run of decimal digits -/
def readDec (ds : List UInt8) : Nat := ds.foldl (fun n c => 10 * n + (c.toNat - 48)) 0

theorem readDec_concat (ds : List UInt8) (c : UInt8) :
    readDec (ds ++ [c]) = 10 * readDec ds + (c.toNat - 48) := by
  rw [readDec, List.foldl_append]; rfl

theorem readDec_decDigits (n : Nat) : readDec (decDigits n) = n := by
  induction n using decDigits.induct with
  | case1 n ih =>
    rw [decDigits, readDec_concat, UInt8.toNat_ofNat_of_lt (by simp only [UInt8.size]; omega)]
    split
    · rename_i h; show 10 * 0 + _ = n; omega
    · rename_i h; rw [ih h]; omega

/-- leading zeros add nothing -/
theorem readDec_zeros (m : Nat) (ds : List UInt8) : readDec (List.replicate m 48 ++ ds) = readDec ds := by
  have h0 : ∀ m, (List.replicate m (48 : UInt8)).foldl (fun n c => 10 * n + (c.toNat - 48)) 0 = 0 := by
    intro m
    induction m with
    | zero => rfl
    | succ m ih => rw [List.replicate_succ', List.foldl_append, ih]; rfl
  rw [readDec, List.foldl_append, h0]; rfl

@[simp] theorem readDec_decPad (k n : Nat) : readDec (decPad k n) = n := by
  rw [decPad, readDec_zeros, readDec_decDigits]

/-- a reader of the time prefix (no Go counterpart): the values of its first six runs of
digits -/
def readTime (b : List UInt8) : Option Clock :=
  match b.splitOnP timeSep with
  | d :: m :: y :: h :: mi :: s :: _ =>
    some ⟨readDec d, readDec m, readDec y, readDec h, readDec mi, readDec s⟩
  | _ => none

/-- the time prefix reads back as the clock, whatever follows it and however many digits a
field takes -/
theorem readTime_fmtTime (t : Clock) (rest : List UInt8) :
    readTime (fmtTime .file t ++ rest) = some t := by
  have hs : ∀ k n, ∀ c ∈ decPad k n, ¬timeSep c = true := fun k n c hc => by
    obtain ⟨d, hd, rfl⟩ := mem_decPad hc
    simp [timeSep_decDigit hd]
  simp only [readTime, fmtTime, ↓reduceIte, List.append_assoc, List.singleton_append,
    List.cons_append, List.nil_append]
  rw [List.splitOnP_first _ _ (hs 2 _) 45 (by decide), List.splitOnP_first _ _ (hs 2 _) 45 (by decide),
    List.splitOnP_first _ _ (hs 4 _) 32 (by decide), List.splitOnP_first _ _ (hs 2 _) 58 (by decide),
    List.splitOnP_first _ _ (hs 2 _) 58 (by decide), List.splitOnP_first _ _ (hs 2 _) 58 (by decide)]
  simp only [readDec_decPad]

@[simp] theorem readTime_nil : readTime [] = none := rfl

/-! ## the loop of `Flush` -/

/-- the text of a written line, before its `'\n'`: the time prefix, then, unless the trimmed
line is empty, a space when the prefix is not empty, and the trimmed line -/
def fileLine (time bytes : List UInt8) : List UInt8 :=
  time ++ if trim bytes = [] then [] else (if time = [] then [] else [32]) ++ trim bytes

/-- what a turn of the loop hands to `outhook` for a line of a level in `levels`:
`buf.Truncate(timeLen)`, the line as above, `buf.WriteByte('\n')` -/
def renderLine (time bytes : List UInt8) : List UInt8 := fileLine time bytes ++ [10]

/-- a `logLineBuf`: its level and its bytes, the prefix and its space included -/
structure LineBuf where
  level : Nat
  bytes : List UInt8
  deriving DecidableEq, Repr

/-- a carbon-copy logger during `Flush`: its levels as `cclist` took them, its own `ccLevels`,
and the lines of the message its `Begin()` made -/
structure CcMsg where
  levels : Nat
  ccLevels : Nat
  lines : List LineBuf
  deriving DecidableEq, Repr

/-- `cc.msg.addBytes(level, 0, line)`: the line, with no prefix, when
`(levels | ccLevels) & level != 0` -/
def CcMsg.addBytes (c : CcMsg) (level : Nat) (line : List UInt8) : CcMsg :=
  if (c.levels ||| c.ccLevels) &&& level ≠ 0 then { c with lines := c.lines ++ [⟨level, line⟩] }
  else c

theorem or_and_ne_zero {a b x : Nat} (h : a &&& x ≠ 0) : (a ||| b) &&& x ≠ 0 := by
  obtain ⟨i, hi⟩ := Nat.ne_zero_implies_bit_true h
  intro h0
  have := congrArg (·.testBit i) h0
  simp only [Nat.testBit_and, Nat.testBit_or, Nat.zero_testBit] at this hi
  simp_all

/-- a line of the carbon copy's levels passes the level test of its `addBytes` -/
theorem CcMsg.addBytes_of_levels (c : CcMsg) {level : Nat} (h : c.levels &&& level ≠ 0)
    (line : List UInt8) : c.addBytes level line = { c with lines := c.lines ++ [⟨level, line⟩] } :=
  if_pos (or_and_ne_zero h)

/-- what the loop has handed on: the lines given to `outhook`, each with its level, and the
carbon copies -/
structure FlushOut where
  written : List (Nat × List UInt8)
  copies : List CcMsg

/-- one turn of `for _, l := range msg.lines`: `l.trim()`, the line to `outhook` when its level
is in `levels`, and `addBytes` of the trimmed line to each carbon copy whose levels hold its
level -/
def flushTurn (levels : Nat) (time : List UInt8) (o : FlushOut) (l : LineBuf) : FlushOut :=
  ⟨if levels &&& l.level ≠ 0 then o.written ++ [(l.level, renderLine time l.bytes)] else o.written,
    o.copies.map fun c => if c.levels &&& l.level ≠ 0 then c.addBytes l.level (trim l.bytes) else c⟩

/-- the loop over the root's lines, after `cc.Begin()` for each carbon copy, given by its
`(levels, ccLevels)` -/
def flushLoop (levels : Nat) (time : List UInt8) (ccs : List (Nat × Nat)) (lines : List LineBuf) :
    FlushOut :=
  lines.foldl (flushTurn levels time) ⟨[], ccs.map fun c => ⟨c.1, c.2, []⟩⟩

/-- the carbon copy's lines after some more turns -/
def CcMsg.copied (lines : List LineBuf) (c : CcMsg) : CcMsg :=
  { c with lines := c.lines ++ (lines.filter (c.levels &&& ·.level ≠ 0)).map fun l => ⟨l.level, trim l.bytes⟩ }

@[simp] theorem CcMsg.copied_nil : CcMsg.copied [] = id :=
  funext fun c => by cases c; simp [CcMsg.copied]

theorem flushTurn_copy (l : LineBuf) (ls : List LineBuf) (c : CcMsg) :
    CcMsg.copied ls (if c.levels &&& l.level ≠ 0 then c.addBytes l.level (trim l.bytes) else c) =
      CcMsg.copied (l :: ls) c := by
  by_cases h : c.levels &&& l.level ≠ 0 <;>
    simp [CcMsg.copied, h, CcMsg.addBytes_of_levels, List.filter_cons]

theorem flushLoop_go (levels : Nat) (time : List UInt8) (o : FlushOut) (lines : List LineBuf) :
    lines.foldl (flushTurn levels time) o =
      ⟨o.written ++ (lines.filter (levels &&& ·.level ≠ 0)).map fun l => (l.level, renderLine time l.bytes),
        o.copies.map (CcMsg.copied lines)⟩ := by
  induction lines generalizing o with
  | nil => simp
  | cons l ls ih =>
    rw [List.foldl_cons, ih]
    simp only [flushTurn, List.map_map, Function.comp_def,
      flushTurn_copy l ls, FlushOut.mk.injEq, and_true]
    by_cases h : levels &&& l.level ≠ 0 <;> simp [h, List.filter_cons]

/-- **The loop of `Flush`.**  It hands to `outhook` the lines of a level in `levels`, in order,
each rendered; and the message of each carbon copy ends up holding the trimmed lines of its
levels, in order: its `addBytes` refuses none of them. -/
theorem flushLoop_spec (levels : Nat) (time : List UInt8) (ccs : List (Nat × Nat))
    (lines : List LineBuf) :
    (flushLoop levels time ccs lines).written =
        (lines.filter (levels &&& ·.level ≠ 0)).map (fun l => (l.level, renderLine time l.bytes)) ∧
      (flushLoop levels time ccs lines).copies = ccs.map fun c =>
        ⟨c.1, c.2, (lines.filter (c.1 &&& ·.level ≠ 0)).map fun l => ⟨l.level, trim l.bytes⟩⟩ := by
  rw [flushLoop, flushLoop_go]
  exact ⟨List.nil_append _, by simp [CcMsg.copied, Function.comp_def]⟩

/-! ## the lines of the message model -/

/-- the `logLineBuf` of a line of the message model whose text is `txt` of its number -/
def LogLine.buf (txt : Nat → List UInt8) (x : LogLine) : LineBuf := ⟨x.level, txt x.id⟩

/-- over lines of the message model, the loop of `Flush` hands to `outhook` the rendering of
exactly those of a level in `levels`, in their order -/
theorem flushLoop_buf (levels : Nat) (txt : Nat → List UInt8) (time : List UInt8)
    (ccs : List (Nat × Nat)) (r : List LogLine) :
    (flushLoop levels time ccs (r.map (LogLine.buf txt))).written =
      (r.filter fun x => levels &&& x.level != 0).map fun x => (x.level, renderLine time (txt x.id)) := by
  rw [flushLoop, flushLoop_go, List.nil_append, List.filter_map, List.map_map]
  exact congrArg _ (List.filter_congr fun x _ => by
    by_cases h : levels &&& x.level = 0 <;> simp [LogLine.buf, h])

theorem ten_not_mem_fileLine {time bytes : List UInt8} (ht : (10 : UInt8) ∉ time)
    (hb : (10 : UInt8) ∉ trim bytes) : (10 : UInt8) ∉ fileLine time bytes := by
  unfold fileLine
  split_ifs <;> simp [ht, hb]

/-- a line of a hex dump in the file, past the time prefix and its space, is the trimmed line -/
theorem fileLine_hexLine {t : Clock} (ht : t.valid = true) (p : UInt8) (off : Nat)
    {row : List UInt8} (h0 : 0 < row.length) (h : row.length ≤ 16) :
    (fileLine (fmtTime .file t) (hexLine p off row)).drop 21 = trim (hexLine p off row) := by
  have hlen := fmtTime_length ht
  have hne : fmtTime .file t ≠ [] := fun he => by rw [he] at hlen; simp at hlen
  rw [fileLine, if_neg (trim_hexLine_ne_nil p off h0 h), if_neg hne, ← List.append_assoc,
    List.drop_left' (by simp [hlen])]

end IppUsb
