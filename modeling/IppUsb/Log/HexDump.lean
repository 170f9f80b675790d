import IppUsb.Log.Trim
import Mathlib.Data.List.Basic

/-!
# `LogMessage.HexDump`

When its level is on in `levels | ccLevels`, `HexDump` adds one line per 16 bytes of `data`,
the last one shorter: `Add(level, prefix, "%4.4x: %s %s", off, hex, chr)`.  `hex` holds the
bytes as `%2.2x`, each followed by `:` after every fourth byte and by a space otherwise, then
three spaces for each byte a short row lacks.  `chr` holds each byte from `0x20` to `0x7F` as
it is and `.` for the others.  A line is a `logLineBuf`: the prefix and a space when the prefix
is not 0, then the text.  Lines are bytes, the hex digits lower case as `%x` writes them.

* `hexLine`, `hexRows`, `hexDump`   one line, the loop, and `HexDump`;
* `readOffset`, `readHexLine`       reading a line's offset and its hex column back;
* `hexLine_read`                    a line and what `trim` leaves of it read back the same:
                                    `trim` stops at the last hex digit at the latest;
* `hexDump_faithful`                `⌈len/16⌉` lines, line `j` at offset `16 j` holding the
                                    bytes `16 j`, …, `16 j + 15` that exist, and the hex columns
                                    read back give `data`.
-/

namespace IppUsb

/-! ## hex digits -/

/-- the digit of a value below 16, as `%x` writes it -/
def hexDigit (d : Nat) : UInt8 := if d < 10 then UInt8.ofNat (48 + d) else UInt8.ofNat (87 + d)

/-- the value of a lower-case hex digit -/
def unhex (c : UInt8) : Option Nat :=
  if 48 ≤ c.toNat ∧ c.toNat ≤ 57 then some (c.toNat - 48)
  else if 97 ≤ c.toNat ∧ c.toNat ≤ 102 then some (c.toNat - 87)
  else none

theorem unhex_hexDigit {d : Nat} (hd : d < 16) : unhex (hexDigit d) = some d := by
  rcases d with _ | _ | _ | _ | _ | _ | _ | _ | _ | _ | _ | _ | _ | _ | _ | _ | d
  all_goals first | rfl | omega

/-- a hex digit is not a separator of the line: not `:`, and not a byte `trim` drops -/
theorem hexDigit_ne {d : Nat} (hd : d < 16) : hexDigit d ≠ 58 ∧ trimSpace (hexDigit d) = false := by
  rcases d with _ | _ | _ | _ | _ | _ | _ | _ | _ | _ | _ | _ | _ | _ | _ | _ | d
  all_goals first | decide | omega

/-- `%x` of `n`: its hex digits, the first first, with no leading zero -/
def hexDigits (n : Nat) : List UInt8 :=
  (if _h : n < 16 then [] else hexDigits (n / 16)) ++ [hexDigit (n % 16)]
termination_by n
decreasing_by omega

theorem mem_hexDigits {n : Nat} {c : UInt8} (hc : c ∈ hexDigits n) : ∃ d < 16, c = hexDigit d := by
  induction n using hexDigits.induct with
  | case1 n ih =>
    rw [hexDigits] at hc
    rcases List.mem_append.mp hc with hc | hc
    · split at hc
      · simp at hc
      · exact ih ‹_› hc
    · exact ⟨n % 16, Nat.mod_lt _ (by omega), List.mem_singleton.mp hc⟩

/-- `%4.4x`: at least four digits, with leading zeros -/
def hex4 (n : Nat) : List UInt8 := List.replicate (4 - (hexDigits n).length) 48 ++ hexDigits n

/-- the offset field holds no `:` -/
theorem hex4_ne_colon (n : Nat) : ∀ c ∈ hex4 n, (c != 58) = true := by
  intro c hc
  rcases List.mem_append.mp hc with hc | hc
  · rw [List.eq_of_mem_replicate hc]; decide
  · obtain ⟨d, hd, rfl⟩ := mem_hexDigits hc
    exact bne_iff_ne.mpr (hexDigit_ne hd).1

/-! ## the lines -/

/-- `fmt.Fprintf(hex, "%2.2x", c)` -/
def hex2 (c : UInt8) : List UInt8 := [hexDigit (c.toNat / 16), hexDigit (c.toNat % 16)]

/-- what the loop `for ; i < sz; i++` writes into `hex`, from the byte `i` of the row on: two
digits, then `:` after every fourth byte and a space after the others -/
def hexCells (i : Nat) : List UInt8 → List UInt8
  | [] => []
  | c :: cs => hex2 c ++ [if i % 4 = 3 then 58 else 32] ++ hexCells (i + 1) cs

theorem hexCells_concat (i : Nat) (row : List UInt8) (c : UInt8) :
    hexCells i (row ++ [c]) =
      hexCells i row ++ hex2 c ++ [if (i + row.length) % 4 = 3 then 58 else 32] := by
  induction row generalizing i with
  | nil => simp [hexCells]
  | cons d ds ih => simp [hexCells, ih, Nat.add_right_comm _ 1, Nat.add_assoc]

/-- what the same loop writes into `chr`: a byte from `0x20` to `0x7F` as it is, `.` for the
others -/
def chrCells (row : List UInt8) : List UInt8 :=
  row.map fun c => if 0x20 ≤ c.toNat ∧ c.toNat < 0x80 then c else 46

/-- `logLineBufAlloc(level, prefix)`: the prefix and a space, unless the prefix is 0 -/
def linePrefix (p : UInt8) : List UInt8 := if p = 0 then [] else [p, 32]

/-- the line `Add(level, prefix, "%4.4x: %s %s", off, hex, chr)` for the bytes `row` at offset
`off`: the loop `for ; i < 16; i++` pads `hex` with three spaces for each byte past the row -/
def hexLine (p : UInt8) (off : Nat) (row : List UInt8) : List UInt8 :=
  linePrefix p ++ hex4 off ++ [58, 32] ++ (hexCells 0 row ++ List.replicate (3 * (16 - row.length)) 32) ++
    [32] ++ chrCells row

/-- a line in the form its reader takes it apart -/
theorem hexLine_eq (p : UInt8) (off : Nat) (row : List UInt8) :
    hexLine p off row = linePrefix p ++ (hex4 off ++ 58 :: 32 ::
      (hexCells 0 row ++ (List.replicate (3 * (16 - row.length)) 32 ++ 32 :: chrCells row))) := by
  simp [hexLine]

/-- the loop `for len(data) > 0` of `HexDump`, at offset `off`: a line for the first
`sz = min(len(data), 16)` bytes, then `off += sz` and `data = data[sz:]` -/
def hexRows (p : UInt8) (off : Nat) (data : List UInt8) : List (List UInt8) :=
  if _h : 0 < data.length then
    hexLine p off (data.take (min data.length 16)) ::
      hexRows p (off + min data.length 16) (data.drop (min data.length 16))
  else []
termination_by data.length
decreasing_by simp only [List.length_drop]; omega

theorem hexRows_pos (p : UInt8) (off : Nat) {data : List UInt8} (h : 0 < data.length) :
    hexRows p off data = hexLine p off (data.take (min data.length 16)) ::
      hexRows p (off + min data.length 16) (data.drop (min data.length 16)) := by
  rw [hexRows, dif_pos h]

theorem hexRows_nil (p : UInt8) (off : Nat) : hexRows p off [] = [] := by
  rw [hexRows, dif_neg (by simp)]

/-- `msg.HexDump(level, prefix, data)`: the lines it adds, none when `level` is off in
`levels | ccLevels` -/
def hexDump (levels ccLevels level : Nat) (p : UInt8) (data : List UInt8) : List (List UInt8) :=
  if (levels ||| ccLevels) &&& level = 0 then [] else hexRows p 0 data

/-! ## reading a line back -/

/-- up to `n` cells of a hex column: two hex digits, then a separator -/
def readCells : Nat → List UInt8 → List UInt8
  | n + 1, a :: b :: rest =>
    match unhex a, unhex b with
    | some x, some y => UInt8.ofNat (16 * x + y) :: readCells n (rest.drop 1)
    | _, _ => []
  | _, _ => []

/-- the bytes of a line's hex column: past the prefix, the offset and `": "`, up to 16 cells -/
def readHexLine (p : UInt8) (line : List UInt8) : List UInt8 :=
  readCells 16 (((line.drop (linePrefix p).length).dropWhile (· != 58)).drop 2)

/-- the value of a run of hex digits, read on from `acc`; `none` at a byte that is not one -/
def hexValue (acc : Nat) : List UInt8 → Option Nat
  | [] => some acc
  | c :: cs => (unhex c).bind fun d => hexValue (16 * acc + d) cs

/-- the offset of a line: the hex digits between the prefix and the first `:` -/
def readOffset (p : UInt8) (line : List UInt8) : Option Nat :=
  hexValue 0 ((line.drop (linePrefix p).length).takeWhile (· != 58))

theorem hexValue_append (acc : Nat) (l₁ l₂ : List UInt8) :
    hexValue acc (l₁ ++ l₂) = (hexValue acc l₁).bind (hexValue · l₂) := by
  induction l₁ generalizing acc with
  | nil => rfl
  | cons c cs ih => simp only [List.cons_append, hexValue, List.append_eq, ih, Option.bind_assoc]

theorem hexValue_zeros (k : Nat) : hexValue 0 (List.replicate k 48) = some 0 := by
  induction k with
  | zero => rfl
  | succ k ih => rw [List.replicate_succ]; exact ih

/-- `%x` reads back -/
theorem hexValue_hexDigits (n : Nat) : hexValue 0 (hexDigits n) = some n := by
  induction n using hexDigits.induct with
  | case1 n ih =>
    have hhigh : hexValue 0 (if _h : n < 16 then [] else hexDigits (n / 16)) = some (n / 16) := by
      split
      · rw [Nat.div_eq_of_lt ‹_›]; rfl
      · exact ih ‹_›
    rw [hexDigits, hexValue_append, hhigh, Option.some_bind, hexValue,
      unhex_hexDigit (Nat.mod_lt _ (by omega)), Option.some_bind, Nat.div_add_mod]
    rfl

/-- **The offset read back.**  `%4.4x` pads with zeros and never cuts digits, so the offset
field reads back as the offset, beyond `0xFFFF` too, whatever follows its `:`. -/
theorem readOffset_colon (p : UInt8) (off : Nat) (rest : List UInt8) :
    readOffset p (linePrefix p ++ (hex4 off ++ 58 :: rest)) = some off := by
  simp only [readOffset, List.drop_left, List.takeWhile_append_of_pos (hex4_ne_colon off),
    List.takeWhile_cons, bne_self_eq_false, Bool.false_eq_true, if_false, List.append_nil]
  rw [hex4, hexValue_append, hexValue_zeros, Option.some_bind, hexValue_hexDigits]

/-- past the prefix, the offset and `": "`, reading starts at the first cell -/
theorem readHexLine_cells (p : UInt8) (off : Nat) (rest : List UInt8) :
    readHexLine p (linePrefix p ++ (hex4 off ++ 58 :: 32 :: rest)) = readCells 16 rest := by
  have hoff : (hex4 off).dropWhile (· != 58) = [] := List.dropWhile_eq_nil_iff.mpr (hex4_ne_colon off)
  simp only [readHexLine, List.drop_left, List.dropWhile_append, hoff, List.isEmpty_nil, if_true,
    List.nil_append]
  rw [List.dropWhile_cons_of_neg (by decide)]
  rfl

/-- a byte is its high digit times 16 plus its low digit -/
theorem hex2_read (c : UInt8) :
    ∃ x y, unhex (hexDigit (c.toNat / 16)) = some x ∧ unhex (hexDigit (c.toNat % 16)) = some y ∧
      UInt8.ofNat (16 * x + y) = c := by
  have hc : c.toNat < 256 := c.val.isLt
  refine ⟨_, _, unhex_hexDigit (by omega), unhex_hexDigit (Nat.mod_lt _ (by omega)), ?_⟩
  rw [Nat.div_add_mod]
  exact UInt8.eq_of_val_eq (by simp [UInt8.ofNat, UInt8.toNat])

/-- one cell read: the two digits of `c`, then its separator skipped -/
theorem readCells_hex2 (n : Nat) (c : UInt8) (rest : List UInt8) :
    readCells (n + 1) (hexDigit (c.toNat / 16) :: hexDigit (c.toNat % 16) :: rest) =
      c :: readCells n (rest.drop 1) := by
  obtain ⟨x, y, hx, hy, hxy⟩ := hex2_read c
  rw [readCells, hx, hy]
  simp only [hxy]

/-- the cells of a row read back as the row, then reading goes on with what follows -/
theorem readCells_hexCells (i k : Nat) (row rest : List UInt8) :
    readCells (row.length + k) (hexCells i row ++ rest) = row ++ readCells k rest := by
  induction row generalizing i with
  | nil => simp [hexCells]
  | cons c cs ih =>
    have e : hexCells i (c :: cs) ++ rest = hexDigit (c.toNat / 16) :: hexDigit (c.toNat % 16) ::
        (if i % 4 = 3 then 58 else 32) :: (hexCells (i + 1) cs ++ rest) := by
      simp [hexCells, hex2]
    rw [e, List.length_cons, Nat.add_right_comm, readCells_hex2, List.drop_one, List.tail_cons, ih,
      List.cons_append]

theorem readCells_hexCells_le (i : Nat) {n : Nat} {row : List UInt8} (rest : List UInt8)
    (h : row.length ≤ n) : readCells n (hexCells i row ++ rest) = row ++ readCells (n - row.length) rest := by
  obtain ⟨k, rfl⟩ := Nat.exists_eq_add_of_le h
  rw [readCells_hexCells, Nat.add_sub_cancel_left]

/-- a space is no hex digit: reading stops there -/
theorem readCells_space (n : Nat) (t : List UInt8) : readCells n (32 :: t) = [] := by
  rcases n with _ | n
  · rfl
  · rcases t with _ | ⟨b, t⟩ <;> rfl

/-- reading stops in the padding and the space after it, also in what `trim` leaves of them -/
theorem readCells_blank (n m j : Nat) (t : List UInt8) :
    readCells n ((List.replicate m 32 ++ 32 :: t).take j) = [] := by
  obtain ⟨t', ht'⟩ : ∃ t', List.replicate m 32 ++ 32 :: t = 32 :: t' := by
    cases m <;> exact ⟨_, rfl⟩
  rw [ht']
  cases j with
  | zero => cases n <;> rfl
  | succ j => exact readCells_space n _

/-- **One line read back.**  The hex column of the line of a row of at most 16 bytes holds the
row. -/
theorem readHexLine_hexLine (p : UInt8) (off : Nat) {row : List UInt8} (h : row.length ≤ 16) :
    readHexLine p (hexLine p off row) = row := by
  rw [hexLine_eq, readHexLine_cells, readCells_hexCells_le _ _ h,
    ← List.take_length (List.replicate _ 32 ++ _), readCells_blank, List.append_nil]

/-- **The lines as `Flush` writes them.**  `trim` stops at the last hex digit at the latest, so
a line and the line `trim` leaves of it both hold its offset and read back as its row. -/
theorem hexLine_read (p : UInt8) (off : Nat) {row : List UInt8} (h0 : 0 < row.length)
    (h : row.length ≤ 16) :
    ∀ l ∈ [hexLine p off row, trim (hexLine p off row)],
      readOffset p l = some off ∧ readHexLine p l = row := by
  have hfull : readOffset p (hexLine p off row) = some off ∧ readHexLine p (hexLine p off row) = row :=
    ⟨by rw [hexLine_eq]; exact readOffset_colon .., readHexLine_hexLine p off h⟩
  refine List.forall_mem_cons.mpr ⟨hfull, List.forall_mem_singleton.mpr ?_⟩
  obtain ⟨row₀, c, rfl⟩ : ∃ row₀ c, row = row₀ ++ [c] :=
    ⟨_, _, (List.dropLast_append_getLast (List.ne_nil_of_length_pos h0)).symm⟩
  rw [List.length_append, List.length_singleton] at h
  -- the last digit of the line is a byte `trim` keeps
  have e : hexLine p off (row₀ ++ [c]) =
      (linePrefix p ++ (hex4 off ++ 58 :: 32 :: (hexCells 0 row₀ ++ [hexDigit (c.toNat / 16)]))) ++
        hexDigit (c.toNat % 16) :: (if row₀.length % 4 = 3 then 58 else 32) ::
          (List.replicate (3 * (16 - (row₀.length + 1))) 32 ++ 32 :: chrCells (row₀ ++ [c])) := by
    simp [hexLine, hexCells_concat, hex2]
  obtain ⟨k, hk⟩ := trim_of_eq_append_cons e (hexDigit_ne (Nat.mod_lt c.toNat (by decide))).2
  rw [hk]
  simp only [List.append_assoc, List.cons_append, List.nil_append]
  refine ⟨readOffset_colon .., ?_⟩
  rw [readHexLine_cells, readCells_hexCells_le _ _ (by omega), show 16 - row₀.length = 15 - row₀.length + 1 by omega,
    readCells_hex2, List.drop_take, List.drop_one, List.tail_cons, readCells_blank]

/-- what `trim` leaves of a line still holds its hex digits -/
theorem trim_hexLine_ne_nil (p : UInt8) (off : Nat) {row : List UInt8} (h0 : 0 < row.length)
    (h : row.length ≤ 16) : trim (hexLine p off row) ≠ [] := fun he => by
  have hr := (hexLine_read p off h0 h _ (List.mem_cons_of_mem _ (List.mem_singleton_self _))).2
  rw [he] at hr
  exact List.ne_nil_of_length_pos h0
    (hr.symm.trans (by simp only [readHexLine, List.drop_nil, List.dropWhile_nil]; rfl))

theorem hexDigit_ne_ten {d : Nat} (hd : d < 16) : hexDigit d ≠ 10 := fun he =>
  absurd (hexDigit_ne hd).2 (by rw [he]; decide)

theorem ten_not_mem_hexCells (i : Nat) (row : List UInt8) : (10 : UInt8) ∉ hexCells i row := by
  induction row generalizing i with
  | nil => simp [hexCells]
  | cons x xs ih =>
    have hx : x.toNat < 256 := x.val.isLt
    simp only [hexCells, hex2, List.mem_append, List.mem_cons, List.mem_singleton,
      List.not_mem_nil, or_false, not_or]
    exact ⟨⟨⟨fun h => hexDigit_ne_ten (by omega) h.symm,
      fun h => hexDigit_ne_ten (Nat.mod_lt _ (by omega)) h.symm⟩, by split <;> decide⟩, ih _⟩

theorem ten_not_mem_linePrefix {p : UInt8} (hp : p ≠ 10) : (10 : UInt8) ∉ linePrefix p := by
  unfold linePrefix
  split <;> simp [Ne.symm hp]

theorem ten_not_mem_hex4 (n : Nat) : (10 : UInt8) ∉ hex4 n := fun hc => by
  rcases List.mem_append.mp hc with hc | hc
  · exact absurd (List.eq_of_mem_replicate hc) (by decide)
  · obtain ⟨d, hd, he⟩ := mem_hexDigits hc
    exact hexDigit_ne_ten hd he.symm

theorem ten_not_mem_chrCells (row : List UInt8) : (10 : UInt8) ∉ chrCells row := by
  simp only [chrCells, List.mem_map, not_exists, not_and]
  intro x _
  split
  · rename_i hx; intro he; rw [he] at hx; exact absurd hx.1 (by decide)
  · decide

/-- no byte of a line is `'\n'`, unless its prefix is -/
theorem ten_not_mem_hexLine {p : UInt8} (hp : p ≠ 10) (off : Nat) (row : List UInt8) :
    (10 : UInt8) ∉ hexLine p off row := by
  simp [hexLine, ten_not_mem_linePrefix hp, ten_not_mem_hex4, ten_not_mem_hexCells,
    ten_not_mem_chrCells]

/-! ## the loop -/

/-- the loop makes `⌈len/16⌉` lines, line `j` at offset `off + 16 j` for the bytes from `16 j`
on -/
theorem hexRows_lines (p : UInt8) (off : Nat) (data : List UInt8) :
    (hexRows p off data).length = (data.length + 15) / 16 ∧
      ∀ j < (data.length + 15) / 16,
        (hexRows p off data)[j]? = some (hexLine p (off + 16 * j) ((data.drop (16 * j)).take 16)) := by
  induction off, data using hexRows.induct p with
  | case1 off data h ih =>
    obtain ⟨ihl, ihg⟩ := ih
    simp only [List.length_drop] at ihl ihg
    rw [hexRows_pos p off h]
    refine ⟨by rw [List.length_cons, ihl]; omega, fun j hj => ?_⟩
    cases j with
    | zero =>
      have htake : data.take (min data.length 16) = data.take 16 := List.take_eq_take.mpr (by omega)
      rw [htake]; simp
    | succ j =>
      have h16 : min data.length 16 = 16 := by omega
      rw [List.getElem?_cons_succ, ihg j (by omega), h16, List.drop_drop, Nat.add_assoc,
        show 16 + 16 * j = 16 * (j + 1) by omega]
  | case2 off data h =>
    obtain rfl : data = [] := List.eq_nil_of_length_eq_zero (by omega)
    simp [hexRows_nil]

/-- a reader that takes every line of a row of one to 16 bytes back to the row takes the lines
of the loop back to `data` -/
theorem hexRows_read (p : UInt8) (rd : List UInt8 → List UInt8)
    (hrd : ∀ off row, 0 < row.length → row.length ≤ 16 → rd (hexLine p off row) = row)
    (off : Nat) (data : List UInt8) : ((hexRows p off data).map rd).flatten = data := by
  induction off, data using hexRows.induct p with
  | case1 off data h ih =>
    rw [hexRows_pos p off h, List.map_cons, List.flatten_cons, ih,
      hrd _ _ (by simp only [List.length_take]; omega) (by simp only [List.length_take]; omega),
      List.take_append_drop]
  | case2 off data h =>
    obtain rfl : data = [] := List.eq_nil_of_length_eq_zero (by omega)
    rw [hexRows_nil, List.map_nil, List.flatten_nil]

/-- each line of the loop is the line of a row of one to 16 bytes -/
theorem mem_hexRows {p : UInt8} {off : Nat} {data s : List UInt8} (hs : s ∈ hexRows p off data) :
    ∃ off' row, s = hexLine p off' row ∧ 0 < row.length ∧ row.length ≤ 16 := by
  induction off, data using hexRows.induct p with
  | case1 off data h ih =>
    rw [hexRows_pos p off h, List.mem_cons] at hs
    rcases hs with rfl | hs
    · exact ⟨off, _, rfl, by simp only [List.length_take]; omega, by simp only [List.length_take]; omega⟩
    · exact ih hs
  | case2 off data h =>
    obtain rfl : data = [] := List.eq_nil_of_length_eq_zero (by omega)
    simp [hexRows_nil] at hs

/-- **`HexDump` is faithful.**  When `level` is on, `HexDump` ends with `⌈len/16⌉` lines.  Line
`j` is the line of the bytes `16 j`, …, `min(16 j + 16, len) - 1` at offset `16 j`; it reads
back as both, and so does what `trim` leaves of it when `Flush` writes it.  The hex columns of
all the lines, in order, read back as `data`, trimmed or not. -/
theorem hexDump_faithful (levels ccLevels level : Nat) (p : UInt8) (data : List UInt8)
    (hl : (levels ||| ccLevels) &&& level ≠ 0) :
    (hexDump levels ccLevels level p data).length = (data.length + 15) / 16 ∧
      (∀ j < (data.length + 15) / 16, ∃ line,
        (hexDump levels ccLevels level p data)[j]? = some line ∧
          line = hexLine p (16 * j) ((data.drop (16 * j)).take 16) ∧
          ∀ l ∈ [line, trim line],
            readOffset p l = some (16 * j) ∧ readHexLine p l = (data.drop (16 * j)).take 16) ∧
      ((hexDump levels ccLevels level p data).map (readHexLine p)).flatten = data ∧
      ((hexDump levels ccLevels level p data).map fun l => readHexLine p (trim l)).flatten = data := by
  obtain ⟨hlen, hline⟩ := hexRows_lines p 0 data
  rw [hexDump, if_neg hl]
  refine ⟨hlen, fun j hj => ⟨_, by rw [hline j hj, Nat.zero_add], rfl, hexLine_read p _ ?_ ?_⟩,
    hexRows_read p _ (fun _ _ _ h => readHexLine_hexLine p _ h) 0 data,
    hexRows_read p (fun l => readHexLine p (trim l))
      (fun _ _ h0 h => (hexLine_read p _ h0 h _ (List.mem_cons_of_mem _ (List.mem_singleton_self _))).2)
      0 data⟩
  · simp only [List.length_take, List.length_drop]; omega
  · simp only [List.length_take]; omega

/-- a dump of 17 bytes at a level that is on: two lines, the second at offset `0x10` -/
theorem hexDump_faithful_seventeen :
    (1 ||| 0) &&& 1 ≠ 0 ∧
      (hexDump 1 0 1 0 (List.replicate 17 65)).length = 2 ∧
      (∀ j < 2, ∃ line, (hexDump 1 0 1 0 (List.replicate 17 65))[j]? = some line ∧
        line = hexLine 0 (16 * j) (((List.replicate 17 65).drop (16 * j)).take 16) ∧
        ∀ l ∈ [line, trim line], readOffset 0 l = some (16 * j) ∧
          readHexLine 0 l = ((List.replicate 17 65).drop (16 * j)).take 16) ∧
      ((hexDump 1 0 1 0 (List.replicate 17 65)).map (readHexLine 0)).flatten = List.replicate 17 65 ∧
      ((hexDump 1 0 1 0 (List.replicate 17 65)).map fun l => readHexLine 0 (trim l)).flatten =
        List.replicate 17 65 :=
  ⟨by decide, hexDump_faithful 1 0 1 0 (List.replicate 17 65) (by decide)⟩

end IppUsb
